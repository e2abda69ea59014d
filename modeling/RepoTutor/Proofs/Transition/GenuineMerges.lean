/-
What a merge joins.

Along a run in which no new commit meets another one, a stored commit keeps its ancestors, so that a merge brought in
something new stays true of it for good (`CleanRun.joinsOutside`). `merge_joins_outside_history` says it of everything that
a merge leaves: while it is pending, the merged commit is not part of the history of HEAD; the second parent of a commit
is never part of the history of the first; and the commit that concludes a merge has two different parents.
-/
import RepoTutor.Proofs.Transition.AppendOnly
import RepoTutor.Proofs.Transition.JoinedParents
import RepoTutor.Proofs.Transition.PendingMerge

namespace RepoTutor.Transition

open Command Repo

variable {r : Repository}

/-- one side of every merge is no ancestor of the other -/
theorem CleanRun.joinsOutside (h : CleanRun r) : JoinsApart (fun p q => ¬r.Ancestor q p) r := by
  induction h with
  | new branch => exact .new branch
  | @apply r op o hr ho hdistinct ih =>
    have hw := hr.reachable.wellFormed
    have hcommits := apply_commits_extend hw ho hdistinct
    -- ancestry among the commits from before is the same afterwards
    have hkept : JoinsApart (fun p q => ¬o.state.Ancestor q p) r := by
      refine ih.imp hw (fun p q hp houtside hq => ?_)
      exact houtside ((hw.ancestor_extends_iff hcommits hp).1 hq)
    refine step_joinsApart hw hkept (fun p q hp houtside hq => ?_) (apply_eq_ok.1 ho).1
    have hold := Repository.isAncestor_iff.2 ((hw.ancestor_extends_iff hcommits hp).1 hq)
    rw [houtside] at hold
    cases hold

/-- the commit that concludes a merge -/
theorem commit_concluding {m : CommitId} (hpending : r.mergeHead = some m) {args : CommitArgs} {o : Outcome}
    (ho : commit r args = .ok o) :
    ∃ c, o.state.headCommit = some c ∧ c.parents = r.headId.toList ++ [m] ∧ o.state.mergeHead = none := by
  obtain ⟨d, hd, hamend, hstate⟩ := commit_effect ho
  have hedits := editsOnly_stagedFor r args
  have hadds := committed_addsCommit (stagedFor r args) d
  have hfresh : args.amend ≠ true := by
    intro htrue
    rw [hamend htrue] at hpending
    cases hpending
  rw [if_neg hfresh] at hd
  obtain ⟨-, message, -, hdraft⟩ := freshDraft_effect hd
  have hparents : d.parents = r.headId.toList ++ [m] := by
    rw [hdraft, hedits.headId, hedits.mergeHead, hpending]
    rfl
  refine ⟨d.commitIn (stagedFor r args), ?_, hparents, by rw [hstate]; rfl⟩
  rw [hstate, Repository.headCommit, hadds.headId, Option.bind_some, hadds.get?_id]

/-- **A merge joins HEAD with something new.** Along a run, the commit of a pending merge is not part of the history of
HEAD, which stands for a commit; the second parent of a commit is not part of the history of the first; and a commit that
concludes a merge has HEAD's commit and the merged one as its two parents, which are different. -/
theorem merge_joins_outside_history (h : CleanRun r) :
    (∀ m, r.mergeHead = some m →
        ∃ head, r.headId = some head ∧ r.commits.contains head = true ∧ r.isAncestor m head = false)
      ∧ (∀ id c p q, r.commits.get? id = some c → c.parents = [p, q] → r.isAncestor q p = false ∧ p ≠ q)
      ∧ ∀ m args o, r.mergeHead = some m → apply r (.commit args) = .ok o →
          ∃ head c, r.headId = some head ∧ head ≠ m ∧ o.state.headCommit = some c ∧ c.parents = [head, m]
            ∧ o.state.mergeHead = none := by
  have hw := h.reachable.wellFormed
  have hjoins := h.joinsOutside
  have houtside : ∀ {p q}, ¬r.Ancestor q p → r.isAncestor q p = false ∧ p ≠ q := by
    intro p q hpq
    refine ⟨Bool.eq_false_iff.2 (fun hold => hpq (Repository.isAncestor_iff.1 hold)), ?_⟩
    rintro rfl
    exact hpq (.refl r p)
  refine ⟨fun m hm => ?_, fun id c p q hc hparents => ?_, fun m args o hm ho => ?_⟩
  · obtain ⟨head, hhead, hpq⟩ := hjoins.merging m hm
    exact ⟨head, hhead, hw.head_stored hhead, (houtside hpq).1⟩
  · exact houtside (hjoins.commit id c hc p q hparents)
  · obtain ⟨head, hhead, hpq⟩ := hjoins.merging m hm
    obtain ⟨c, hc, hparents, hdone⟩ := commit_concluding hm (apply_eq_ok.1 ho).1
    rw [hhead] at hparents
    exact ⟨head, c, hhead, (houtside hpq).2, hc, hparents, hdone⟩

/-- the lagging branch in the middle of a merge with the branch that is ahead -/
def joining : Repository := { lagging with mergeHead := some newerCommit.id }

theorem joining_cleanRun : CleanRun joining := by
  obtain ⟨o, ho, hstate⟩ := lagging_merge false none
  have hjoining : o.state = joining := hstate
  rw [← hjoining]
  exact lagging_cleanRun.step_same ho (by rw [hjoining]; rfl)

/-- a merge that was left for the next commit is concluded -/
theorem joining_is_concluded :
    CleanRun joining ∧ joining.mergeHead = some newerCommit.id
      ∧ joining.isAncestor newerCommit.id olderCommit.id = false ∧ ∃ o c,
        apply joining (.commit { message := some "joined" }) = .ok o ∧ o.state.headCommit = some c
          ∧ c.parents = [olderCommit.id, newerCommit.id] := by
  have hw := joining_cleanRun.reachable.wellFormed
  have hhead : joining.headId = some olderCommit.id := lagging_headId
  have htree : joining.headTree = .empty := by
    have hcommits : joining.commits = lagging.commits := rfl
    rw [headTree_of_headId hhead, treeOf_congr hcommits, lagging_treeOf]
  obtain ⟨o, hcommit, hstate⟩ := commit_concludes (q := joining) rfl "joined" false
  have hstep : step joining (.commit { message := some "joined" }) = .ok o := hcommit
  have hdistinct : DistinctCommitIds joining o.state := by
    rw [hhead, htree] at hstate
    refine hw.distinct_of_insert (c := mergeCommit lagging "main" olderCommit.id newerCommit.id (some "joined") .empty) rfl
      (by rw [hstate]; exact committed_commits _ _) ?_
    rw [joinedCommit_id]
    simp [joining, lagging, advanced, branched, lone, olderCommit_id, newerCommit_id]
  have happly := apply_of_step hw hstep hdistinct
  obtain ⟨hpending, -, hconcluded⟩ := merge_joins_outside_history joining_cleanRun
  obtain ⟨head, hborn, -, houtside⟩ := hpending newerCommit.id rfl
  obtain ⟨head', c, hborn', -, hc, hparents, -⟩ := hconcluded newerCommit.id _ o rfl happly
  cases hhead.symm.trans hborn
  cases hhead.symm.trans hborn'
  exact ⟨joining_cleanRun, rfl, houtside, o, c, happly, hc, hparents⟩

end RepoTutor.Transition
