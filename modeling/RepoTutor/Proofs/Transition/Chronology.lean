/-
One commit for every tick of the clock.

Only a new commit moves the clock on, by one tick, and takes its time from it. So along a run, as long as the clock does
not run over, the times of the commits are the numbers from one up to the clock, each for one commit, and a commit is
later than its parents (`TimelyRun.chronological`). From this follows that a new commit never meets another one, that
what is stored stays stored, and that a log, which is sorted by time, is in topological order;
`history_grows_with_clock` states all of it.
-/
import RepoTutor.Proofs.Repo.LogOrder
import RepoTutor.Proofs.Transition.AppendOnly
import RepoTutor.Proofs.Transition.EmptyCommits

namespace RepoTutor.Transition

open Command Repo

variable {r r' : Repository} {c : Commit}

theorem SameHistory.chronological (hsame : SameHistory r r') (h : Chronological r) : Chronological r' := by
  refine ⟨?_, ?_⟩
  · rw [hsame.commits, hsame.clock]
    exact h.times
  · rw [hsame.commits]
    exact h.parent

namespace AddsCommit

/-- no commit is as late as the new one, so it does not meet any -/
theorem fresh (hadds : AddsCommit r r' c) (h : Chronological r) (hclock : r.clock + 1 < wordCount 64)
    (hextends : Table.Extends r.commits r'.commits) : r.commits.get? c.id = none := by
  cases hold : r.commits.get? c.id with
  | none => rfl
  | some d =>
    have hsame : d = c := Option.some.inj ((hextends c.id d hold).symm.trans hadds.get?_id)
    have hbound : d.timestamp ≤ r.clock := (h.timestamp_bounds hold).2
    have htime : c.timestamp = r.clock + 1 := hadds.timestamp.trans (tick_of_lt hclock)
    rw [hsame] at hbound
    omega

theorem chronological (hadds : AddsCommit r r' c) (hw : WellFormed r) (hw' : WellFormed r') (h : Chronological r)
    (hclock : r.clock + 1 < wordCount 64) (hextends : Table.Extends r.commits r'.commits) : Chronological r' := by
  have hfresh := hadds.fresh h hclock hextends
  have htime : c.timestamp = r.clock + 1 := hadds.timestamp.trans (tick_of_lt hclock)
  have hold : ∀ {id d}, id ≠ c.id → r'.commits.get? id = some d → r.commits.get? id = some d := by
    intro id d hne hd
    rw [hadds.commits, Table.get?_insert, if_neg (Ne.symm hne)] at hd
    exact hd
  refine ⟨?_, fun id p e d he hd hp => ?_⟩
  · have htimes : (r'.commits.values.map Commit.timestamp).Perm
        (c.timestamp :: r.commits.values.map Commit.timestamp) := by
      rw [hadds.commits]
      exact (Table.values_insert_perm c hfresh).map Commit.timestamp
    rw [hadds.clock, tick_of_lt hclock, List.range'_1_concat, Nat.add_comm 1, ← htime]
    exact (htimes.trans (h.times.cons _)).trans (List.perm_append_singleton _ _).symm
  · by_cases hid : id = c.id
    · -- a parent of the new commit is one of the others
      subst hid
      have hsame : c = e := Option.some.inj (hadds.get?_id.symm.trans he)
      subst hsame
      have hne : p ≠ c.id := by
        rintro rfl
        exact hw'.acyclic.irrefl c.id (.single (Repository.isParent_iff.2 ⟨c, he, hp⟩))
      have hbound := (h.timestamp_bounds (hold hne hd)).2
      omega
    · -- the new commit is no parent of another one
      have he := hold hid he
      have hne : p ≠ c.id := by
        rintro rfl
        have hstored := (hw.commit id e he).parents c.id hp
        simp [Table.contains, hfresh] at hstored
      exact h.parent id p e d he (hold hne hd) hp

end AddsCommit

/-- **Operations keep a history chronological while the clock does not run over.** -/
theorem apply_chronological (hw : WellFormed r) (h : Chronological r) (hclock : r.clock + 1 < wordCount 64)
    {op : Operation} {o : Outcome} (ho : apply r op = .ok o) (hdistinct : DistinctCommitIds r o.state) :
    Chronological o.state := by
  rcases step_history (apply_eq_ok.1 ho).1 with hsame | ⟨c, hadds⟩
  · exact hsame.chronological h
  · exact hadds.chronological hw (apply_wellFormed hw ho) h hclock (apply_commits_extend hw ho hdistinct)

theorem TimelyRun.chronological (h : TimelyRun r) : Chronological r := by
  induction h with
  | new branch => exact ⟨.refl _, fun id p c d hc => by simp [Repository.new] at hc⟩
  | apply hr hclock ho hdistinct ih =>
    exact apply_chronological hr.cleanRun.reachable.wellFormed ih hclock ho hdistinct

/-- a log without a limit tells the whole history of its start -/
theorem apply_log {target : Option String} {start : CommitId} (hstart : startPoint r target = some start)
    (oneline : Bool) :
    apply r (.log target none oneline) = .ok ⟨r, .log ((r.history start).map (logEntry r)) oneline⟩ := by
  refine apply_eq_ok.2 ⟨?_, Or.inl rfl⟩
  cases target with
  | none =>
    have hstart := bornHead_eq_ok.2 hstart
    simp [step, log, hstart, bind, Except.bind, pure, Except.pure]
  | some rev =>
    have hstart := resolveRef_eq_ok.2 hstart
    simp [step, log, hstart, bind, Except.bind, pure, Except.pure]

/-- **A history is only ever continued, tick by tick.** Along a run, whatever an operation does, all commits and contents
stay as they are; the commits have the times from one up to the clock, one commit each, and every commit is later than
its parents. So the log of any commit tells each of its ancestors once, later ones first and none before its own
descendants. -/
theorem history_grows_with_clock (h : TimelyRun r) :
    (∀ op o, apply r op = .ok o → DistinctCommitIds r o.state →
        Table.Extends r.commits o.state.commits ∧ Table.Extends r.blobs o.state.blobs)
      ∧ (r.commits.values.map Commit.timestamp).Perm (List.range' 1 r.clock)
      ∧ (∀ id p c d, r.commits.get? id = some c → r.commits.get? p = some d → p ∈ c.parents → d.timestamp < c.timestamp)
      ∧ (∀ start, r.commits.contains start = true → ToldInOrder r start (r.history start))
      ∧ ∀ target start oneline, startPoint r target = some start → r.commits.contains start = true
          ∧ apply r (.log target none oneline) = .ok ⟨r, .log ((r.history start).map (logEntry r)) oneline⟩ := by
  have hw := h.cleanRun.reachable.wellFormed
  have hchronological := h.chronological
  refine ⟨fun op o ho hdistinct => ⟨?_, ?_⟩, hchronological.times, hchronological.parent, fun start hstart => ?_,
    fun target start oneline hstart => ⟨startPoint_stored hw hstart, apply_log hstart oneline⟩⟩
  · exact apply_commits_extend hw ho hdistinct
  · exact step_blobs_extend (apply_eq_ok.1 ho).1
  · exact hchronological.toldInOrder hw hstart

/-- a hard reset to the older of two commits keeps the newer one stored, and the log of the newer one tells both -/
theorem newer_commit_survives_reset :
    TimelyRun advanced ∧ (advanced.commits.values.map Commit.timestamp).Perm [1, 2]
      ∧ ToldInOrder advanced newerCommit.id (advanced.history newerCommit.id)
      ∧ ∃ o, apply advanced (.reset (some "old") .hard) = .ok o ∧ o.state.headId = some olderCommit.id
        ∧ o.state.commits.get? newerCommit.id = some newerCommit := by
  have hnewer : advanced.commits.get? newerCommit.id = some newerCommit := by simp [advanced]
  have hold : advanced.resolve "old" = some olderCommit.id := by
    simp [Repository.resolve, Repository.resolveBase, advanced, branched, isStepMark, parseSteps?]
  have hw := advanced_cleanRun.reachable.wellFormed
  obtain ⟨o, hstep, hstate⟩ : ∃ o, step advanced (.reset (some "old") .hard) = .ok o
      ∧ o.state = { resetHead advanced (some olderCommit.id) with edits := .empty } := by
    refine ⟨resetOutcome advanced.headTree (resetHead advanced (some olderCommit.id)) .hard, ?_, rfl⟩
    simp only [step, reset_eq, resolveRef_eq_ok.2 hold]
    rfl
  have hdistinct : DistinctCommitIds advanced o.state :=
    hw.distinct_of_same (by rw [hstate]; exact (resetHead_repoints _ _).commits)
  have happly : apply advanced (.reset (some "old") .hard) = .ok o := apply_of_step hw hstep hdistinct
  obtain ⟨hkept, htimes, -, htold, -⟩ := history_grows_with_clock advanced_timelyRun
  refine ⟨advanced_timelyRun, htimes, htold _ (Table.contains_of_get? hnewer), o, happly, ?_, ?_⟩
  · rw [hstate, (EditsOnly.of_edits (resetHead advanced (some olderCommit.id)) .empty).headId]
    simp [resetHead]
  · exact (hkept _ o happly hdistinct).1 _ _ hnewer

end RepoTutor.Transition
