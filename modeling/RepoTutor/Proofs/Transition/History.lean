/-
What an operation does to the history.

An operation leaves commits and clock as they are, or it adds one commit, at which HEAD then is, and the clock moves on
by one tick (`step_history`). HEAD does not become unborn again (`step_born`), so as long as it is unborn there are no
commits at all (`Reachable.noCommits_of_unborn`). All times are 64-bit words (`Reachable.fitsWords`).
-/
import RepoTutor.Proofs.Repo.RoundTrip
import RepoTutor.Proofs.Transition.Application
import RepoTutor.Proofs.Transition.Pointers

namespace RepoTutor.Transition

open Command Repo

/-- commits and clock are the same -/
structure SameHistory (r r' : Repository) : Prop where
  commits : r'.commits = r.commits
  clock : r'.clock = r.clock

/-- one commit more, at HEAD and one tick later -/
structure AddsCommit (r r' : Repository) (c : Commit) : Prop where
  commits : r'.commits = r.commits.insert c.id c
  headId : r'.headId = some c.id
  timestamp : c.timestamp = tick r.clock
  clock : r'.clock = tick r.clock

namespace SameHistory

variable {r r' : Repository}

theorem refl (r : Repository) : SameHistory r r := ⟨rfl, rfl⟩

theorem editsOnly (h : EditsOnly r r') : SameHistory r r' := ⟨h.commits, h.clock⟩

theorem repoints (h : Repoints r r') : SameHistory r r' := ⟨h.commits, h.clock⟩

theorem noCommits (h : SameHistory r r') (hcommits : r.commits.isEmpty = true) : r'.commits.isEmpty = true := by
  rw [h.commits]
  exact hcommits

end SameHistory

theorem AddsCommit.get?_id {r r' : Repository} {c : Commit} (h : AddsCommit r r' c) :
    r'.commits.get? c.id = some c := by
  rw [h.commits, Table.get?_insert, if_pos rfl]

theorem addCommit_clock (r : Repository) (c : Commit) : (addCommit r c).clock = c.timestamp :=
  (Repoints.moveHead _ _).clock

theorem committed_addsCommit (r : Repository) (d : Draft) : AddsCommit r (committed r d) (d.commitIn r) := by
  refine ⟨committed_commits r d, ?_, rfl, addCommit_clock r.storeStaged (d.commitIn r)⟩
  exact headId_addCommit r.storeStaged (d.commitIn r)

theorem commit_history {r : Repository} {args : CommitArgs} {o : Outcome} (ho : commit r args = .ok o) :
    ∃ c, AddsCommit r o.state c := by
  obtain ⟨d, -, -, hstate⟩ := commit_effect ho
  have hedits := editsOnly_stagedFor r args
  have hadds := committed_addsCommit (stagedFor r args) d
  rw [hstate]
  refine ⟨d.commitIn (stagedFor r args), ?_, hadds.headId, ?_, ?_⟩
  · rw [hadds.commits, hedits.commits]
  · rw [hadds.timestamp, hedits.clock]
  · rw [hadds.clock, hedits.clock]

theorem trueMerge_history {r : Repository} {source : String} {ours theirs : CommitId} {commit : Bool}
    {message : Option String} {o : Outcome} (ho : trueMerge r source ours theirs commit message = .ok o) :
    (SameHistory r o.state ∧ o.state.headId = r.headId) ∨ ∃ c, AddsCommit r o.state c := by
  obtain ⟨base, merged, -, -, -, ⟨-, hstate⟩ | ⟨-, hstate⟩⟩ := trueMerge_effect ho
  · refine Or.inr ⟨mergeCommit r source ours theirs message merged, ?_⟩
    rw [hstate]
    exact ⟨addCommit_commits r _, headId_addCommit r _, rfl, addCommit_clock r _⟩
  · have hedits := editsOnly_stagePaths merged (changedPaths (r.treeOf (some ours)) merged) r
    rw [hstate]
    exact Or.inl ⟨⟨hedits.commits, hedits.clock⟩, hedits.headId⟩

/-- a merge moves HEAD to another commit, adds one, or leaves HEAD where it is -/
theorem merge_history {r : Repository} {source : String} {ff : FastForward} {commit : Bool} {message : Option String}
    {o : Outcome} (ho : merge r source ff commit message = .ok o) :
    (SameHistory r o.state ∧ (o.state.headId = r.headId ∨ o.state.headId.isSome = true)) ∨ ∃ c, AddsCommit r o.state c := by
  obtain ⟨-, -, theirs, -, hcases⟩ := merge_effect ho
  have hmoved : SameHistory r (r.moveHead theirs).settleEdits ∧ (r.moveHead theirs).settleEdits.headId.isSome = true := by
    refine ⟨.repoints (Repoints.moveHead r theirs).settleEdits, ?_⟩
    rw [(editsOnly_settleEdits _).headId, headId_moveHead]
    rfl
  rcases hcases with ⟨-, -, hstate⟩ | ⟨ours, -, ⟨-, hstate⟩ | ⟨-, -, -, -, hstate⟩ | ⟨-, -, -, ho⟩⟩
  · rw [hstate]
    exact Or.inl ⟨hmoved.1, Or.inr hmoved.2⟩
  · rw [hstate]
    exact Or.inl ⟨.refl r, Or.inl rfl⟩
  · rw [hstate]
    exact Or.inl ⟨hmoved.1, Or.inr hmoved.2⟩
  · exact (trueMerge_history ho).imp_left (fun h => ⟨h.1, Or.inl h.2⟩)

theorem reset_history {r : Repository} {target : Option String} {mode : ResetMode} {o : Outcome}
    (ho : reset r target mode = .ok o) :
    SameHistory r o.state ∧ (o.state.headId = r.headId ∨ o.state.headId.isSome = true) := by
  obtain ⟨-, rfl⟩ := reset_effect ho
  have hmoved := resetHead_repoints r (startPoint r target)
  have hedits := editsOnly_resetOutcome r.headTree (resetHead r (startPoint r target)) mode
  refine ⟨⟨hedits.commits.trans hmoved.commits, hedits.clock.trans hmoved.clock⟩, ?_⟩
  rw [hedits.headId]
  cases startPoint r target with
  | none => exact Or.inl rfl
  | some id => exact Or.inr (by simp [resetHead])

/-- **An operation leaves the history alone or adds one commit to it.** -/
theorem step_history {r : Repository} {op : Operation} {o : Outcome} (hstep : step r op = .ok o) :
    SameHistory r o.state ∨ ∃ c, AddsCommit r o.state c := by
  cases step_effect hstep with
  | edits hedits => exact Or.inl (.editsOnly hedits)
  | init initialBranch ho => exact Or.inl (ho ▸ .repoints (init_repoints r initialBranch))
  | commit args ho => exact Or.inr (commit_history ho)
  | branch op ho => exact Or.inl (.repoints (branch_repoints ho))
  | checkout target mode ho => exact Or.inl (.repoints (checkout_repoints ho))
  | merge source ff commit message ho => exact (merge_history ho).imp_left And.left
  | abort ho =>
    obtain ⟨-, hstate⟩ := abortMerge_effect ho
    rw [hstate]
    exact Or.inl ⟨rfl, rfl⟩
  | reset target mode ho => exact Or.inl (reset_history ho).1

/-- **HEAD does not become unborn again.** -/
theorem step_born {r : Repository} (hw : WellFormed r) {op : Operation} {o : Outcome} (hstep : step r op = .ok o)
    (hborn : r.headId.isSome = true) : o.state.headId.isSome = true := by
  have hsame : o.state.headId = r.headId → o.state.headId.isSome = true := fun h => h ▸ hborn
  cases step_effect hstep with
  | edits hedits => exact hsame hedits.headId
  | init initialBranch ho =>
    rcases init_effect r initialBranch with hstate | ⟨name, -, hcommits, -, -⟩
    · exact hsame (by rw [ho, hstate])
    · rw [hw.unborn_of_noCommits hcommits] at hborn
      cases hborn
  | commit args ho =>
    obtain ⟨c, hc⟩ := commit_history ho
    rw [hc.headId]
    rfl
  | branch op ho =>
    obtain ⟨head, hhead⟩ := Option.isSome_iff_exists.1 hborn
    rw [branch_headId ho hhead]
    rfl
  | checkout target mode ho =>
    rcases checkout_pointers ho with hstate | ⟨next, -, hnext, hstate⟩ | ⟨hunborn, -⟩
    · exact hsame (by rw [hstate])
    · rw [hstate, (editsOnly_settleEdits next).headId]
      exact hnext
    · rw [hunborn] at hborn
      cases hborn
  | merge source ff commit message ho =>
    rcases merge_history ho with ⟨-, hhead | hhead⟩ | ⟨c, hc⟩
    · exact hsame hhead
    · exact hhead
    · rw [hc.headId]
      rfl
  | abort ho =>
    obtain ⟨-, hstate⟩ := abortMerge_effect ho
    exact hsame (by rw [hstate]; rfl)
  | reset target mode ho => exact (reset_history ho).2.elim hsame id

/-! ## Runs -/

/-- as long as HEAD is unborn there are no commits -/
theorem Reachable.noCommits_of_unborn {r : Repository} (h : Reachable r) (hunborn : r.headId = none) :
    r.commits.isEmpty = true := by
  induction h with
  | new branch => rfl
  | @apply r op o hr ho ih =>
    have hstep := (apply_eq_ok.1 ho).1
    have hbefore : r.headId = none := by
      rw [← Option.not_isSome_iff_eq_none]
      intro hborn
      have hafter := step_born hr.wellFormed hstep hborn
      rw [hunborn] at hafter
      cases hafter
    rcases step_history hstep with hsame | ⟨c, hc⟩
    · exact hsame.noCommits (ih hbefore)
    · rw [hc.headId] at hunborn
      cases hunborn

/-- operations count the time in 64-bit words -/
theorem Reachable.fitsWords {r : Repository} (h : Reachable r) : FitsWords r := by
  induction h with
  | new branch => exact ⟨Nat.zero_lt_of_lt (tick_lt 0), fun id c hc => by simp [Repository.new] at hc⟩
  | @apply r op o hr ho ih =>
    rcases step_history (apply_eq_ok.1 ho).1 with hsame | ⟨new, hnew⟩
    · exact ⟨hsame.clock ▸ ih.clock, hsame.commits ▸ ih.timestamp⟩
    · refine ⟨hnew.clock ▸ tick_lt r.clock, fun id c hc => ?_⟩
      rw [hnew.commits, Table.get?_insert] at hc
      split at hc
      · cases hc
        exact hnew.timestamp ▸ tick_lt r.clock
      · exact ih.timestamp id c hc

end RepoTutor.Transition
