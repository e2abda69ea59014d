/-
Merge bases of the repositories that learners get to.

On an accepted repository the search for a base ends within as many rounds as there are commits, and finds none exactly
for commits without a common ancestor; a merge is refused as one of unrelated histories exactly for these
(`mergeBase_decides_relatedness`). What the search finds is a common ancestor that is met first, which need not be the
best one: `base_is_met_first` says when it is. A merge commit that could have been a fast-forward is enough for another
outcome (`joined_base_is_not_best`).
-/
import RepoTutor.Proofs.Repo.BaseSearch
import RepoTutor.Proofs.Transition.FastForward
import RepoTutor.Proofs.Transition.JoinedHistory

namespace RepoTutor.Transition

open Command Repo

/-! ## Unrelated histories -/

section Unrelated

variable {r : Repository} {source : String} {commit : Bool} {message : Option String}

theorem checkOverwrite_ne_unrelated {tree : Tree} : r.checkOverwrite tree ≠ .error .unrelatedHistories := by
  unfold Repository.checkOverwrite
  split
  · simp
  · simp

theorem advance_ne_unrelated {id : CommitId} : advance r id ≠ .error .unrelatedHistories := by
  intro h
  exact checkOverwrite_ne_unrelated (Except.bind_ok_eq_error.1 h)

theorem trueMerge_unrelated_iff {ours theirs : CommitId} :
    trueMerge r source ours theirs commit message = .error .unrelatedHistories ↔ r.mergeBase ours theirs = none := by
  unfold trueMerge
  cases r.mergeBase ours theirs with
  | none => simp
  | some base =>
    simp only [reduceCtorEq, iff_false]
    intro h
    split at h
    · cases h
    · rcases Except.bind_eq_error.1 h with h | ⟨-, -, h⟩
      · exact checkOverwrite_ne_unrelated h
      · cases commit <;> cases h

/-- a merge is refused for the lack of a base when nothing else is in its way -/
theorem merge_unrelated_iff {ff : FastForward} :
    merge r source ff commit message = .error .unrelatedHistories ↔
      r.mergeHead = none ∧ r.hasStaged = false ∧ ff ≠ .only ∧ ∃ ours theirs, r.headId = some ours
        ∧ r.resolve source = some theirs ∧ r.mergeBase ours theirs = none := by
  constructor
  · intro h
    unfold merge at h
    split at h
    · cases h
    rename_i hmerge
    split at h
    · cases h
    rename_i hstaged
    rcases Except.bind_eq_error.1 h with h | ⟨theirs, htheirs, h⟩
    · cases (resolveRef_eq_error.1 h).2
    split at h
    · exact absurd (Except.bind_ok_eq_error.1 h) advance_ne_unrelated
    rename_i ours hours
    split at h
    · cases h
    split at h
    · exact absurd (Except.bind_ok_eq_error.1 h) advance_ne_unrelated
    split at h
    · cases h
    rename_i honly
    exact ⟨by simpa using hmerge, by simpa using hstaged, honly, ours, theirs, hours, resolveRef_eq_ok.1 htheirs,
      trueMerge_unrelated_iff.1 h⟩
  · rintro ⟨hmerge, hstaged, honly, ours, theirs, hours, htheirs, hbase⟩
    -- without a common ancestor neither commit continues the other
    have hapart : ∀ x, r.Ancestor x ours → ¬r.Ancestor x theirs := by
      intro x hx hx'
      have hsome := Repository.mergeBase_isSome_iff.2 ⟨x, hx, hx'⟩
      rw [hbase] at hsome
      cases hsome
    have hnew : r.isAncestor theirs ours = false :=
      Repository.isAncestor_eq_false.2 (fun h => hapart theirs h (.refl r theirs))
    have hold : r.isAncestor ours theirs = false :=
      Repository.isAncestor_eq_false.2 (fun h => hapart ours (.refl r ours) h)
    rw [merge_eq_trueMerge hmerge hstaged htheirs hours hnew (Or.inl hold) honly]
    exact trueMerge_unrelated_iff.2 hbase

end Unrelated

theorem mergeBase_eq_none_iff {r : Repository} {a b : CommitId} :
    r.mergeBase a b = none ↔ ∀ x, ¬r.CommonAncestor a b x := by
  rw [← Option.not_isSome_iff_eq_none, Repository.mergeBase_isSome_iff, not_exists]
  rfl

/-- **The search for a base decides whether two commits are related.** On an accepted repository it ends within as many
rounds as there are commits; what it finds is stored and an ancestor of both commits, and it finds nothing exactly when
they have no common ancestor. A merge is refused for unrelated histories exactly when HEAD and the source have none, no
merge and no staged edit is pending, and HEAD need not be fast-forwarded. -/
theorem mergeBase_decides_relatedness {r : Repository} (h : r.check = .ok ()) :
    (∀ a b, r.commits.contains a = true → r.commits.contains b = true →
        r.mergeBaseWithin r.commits.size a b = some (r.mergeBase a b)
          ∧ (∀ c, r.mergeBase a b = some c → r.commits.contains c = true ∧ r.CommonAncestor a b c)
          ∧ (r.mergeBase a b = none ↔ ∀ x, ¬r.CommonAncestor a b x))
      ∧ ∀ source ff commit message,
          apply r (.merge (.start source ff commit message)) = .error .unrelatedHistories ↔
            r.mergeHead = none ∧ r.hasStaged = false ∧ ff ≠ .only ∧ ∃ ours theirs, r.headId = some ours
              ∧ r.resolve source = some theirs ∧ ∀ x, ¬r.CommonAncestor ours theirs x := by
  have hw := Repository.check_eq_ok.1 h
  refine ⟨fun a b ha hb => ⟨Repository.mergeBaseWithin_size hw ha b, fun c hc => ?_, mergeBase_eq_none_iff⟩, ?_⟩
  · have hcommon := Repository.mergeBase_common hc
    exact ⟨hw.ancestor_stored hcommon.1 ha, hcommon⟩
  · intro source ff commit message
    have hstep : step r (.merge (.start source ff commit message)) = merge r source ff commit message := rfl
    rw [apply_eq_error rfl, hstep, merge_unrelated_iff]
    simp only [mergeBase_eq_none_iff]

/-- a root commit that takes the place of another one -/
def amendedCommit : Commit := .make [] defaultAuthor 2 "other" .empty

theorem amendedCommit_id : amendedCommit.id = "75c44ef89463e81e97d0ce7371ae3895b07c0f972af3fe0a6bf129bf92728945" := by
  rw [amendedCommit, Commit.make_id]
  decide +kernel

/-- the first commit amended on the main branch, and kept on the other branch -/
def amended : Repository :=
  { branched with
    commits := branched.commits.insert amendedCommit.id amendedCommit
    branches := branched.branches.insert "main" amendedCommit.id
    clock := 2 }

theorem amendedCommit_ne : amendedCommit.id ≠ olderCommit.id := by
  rw [amendedCommit_id, olderCommit_id]
  decide

theorem amended_wellFormed : WellFormed amended := by
  have hnew : branched.commits.get? amendedCommit.id = none := by
    simp [branched, lone, Ne.symm amendedCommit_ne]
  have hcommit := branched_cleanRun.reachable.wellFormed.insertCommit (c := amendedCommit) rfl
    (by simp [amendedCommit, Commit.make]) (by simp [amendedCommit, Commit.make]) (by simp [amendedCommit, Commit.make])
    (fun d hd => by rw [hnew] at hd; cases hd)
  have hbranch := hcommit.insertBranch "main" ((Table.contains_insert _ _ _ _).2 (Or.inl rfl))
  exact hbranch.repoint rfl rfl hbranch.branch hbranch.head hbranch.mergeHead

theorem ancestor_of_root {r : Repository} {d x : CommitId} (hroot : r.parentsOf d = []) (h : r.Ancestor x d) :
    x = d := by
  refine h.mem_of_closed (P := (· = d)) rfl (fun y hy p hp => ?_)
  rw [Repository.IsParent, hy, hroot] at hp
  exact absurd hp List.not_mem_nil

/-- the branch that kept the old root cannot be merged -/
theorem amended_root_is_unrelated :
    amended.check = .ok () ∧ amended.commits.contains amendedCommit.id = true
      ∧ amended.commits.contains olderCommit.id = true
      ∧ amended.mergeBaseWithin amended.commits.size amendedCommit.id olderCommit.id = some none
      ∧ apply amended (.merge (.start "old" .allow true none)) = .error .unrelatedHistories := by
  have hcheck : amended.check = .ok () := Repository.check_eq_ok.2 amended_wellFormed
  have hnewer : amended.commits.get? amendedCommit.id = some amendedCommit := by simp [amended]
  have holder : amended.commits.get? olderCommit.id = some olderCommit := by
    simp [amended, branched, lone, amendedCommit_ne]
  have hnone : ∀ x, ¬amended.CommonAncestor amendedCommit.id olderCommit.id x := by
    rintro x ⟨hx, hx'⟩
    have hfirst := ancestor_of_root (Repository.parentsOf_of_get? hnewer) hx
    have hsecond := ancestor_of_root (Repository.parentsOf_of_get? holder) hx'
    exact amendedCommit_ne (hfirst.symm.trans hsecond)
  have hhead : amended.headId = some amendedCommit.id := by
    simp [Repository.headId, amended, branched, lone, Repository.new]
  have hresolve : amended.resolve "old" = some olderCommit.id := by
    simp [Repository.resolve, Repository.resolveBase, amended, branched, isStepMark, parseSteps?]
  obtain ⟨hsearch, hmerge⟩ := mergeBase_decides_relatedness hcheck
  obtain ⟨hends, -, hbase⟩ := hsearch _ _ (Table.contains_of_get? hnewer) (Table.contains_of_get? holder)
  refine ⟨hcheck, Table.contains_of_get? hnewer, Table.contains_of_get? holder, ?_, ?_⟩
  · rw [hends, hbase.2 hnone]
  · exact (hmerge "old" .allow true none).2 ⟨rfl, rfl, by simp, _, _, hhead, hresolve, hnone⟩

/-! ## The base that is found -/

/-- **The base is a common ancestor that is met first.** Whatever both sides of the search have reached after some turns,
they have reached the base. So the base is best, and no common ancestor continues it, if every common ancestor that is not
best is met later than one that is; in particular if there are no merges in the two histories. The base of a commit and
one that continues it is best exactly when it is the older of the two. -/
theorem base_is_met_first {r : Repository} (hr : Reachable r) {a b c : CommitId} (h : r.mergeBase a b = some c) :
    r.CommonAncestor a b c
      ∧ (∀ t x, r.MetBy a b t x → r.MetBy a b t c)
      ∧ ((∀ x, r.CommonAncestor a b x → ¬r.BestBase a b x →
            ∃ m t, r.BestBase a b m ∧ r.MetBy a b t m ∧ ¬r.MetBy a b t x) → r.BestBase a b c)
      ∧ ((∀ x, r.Ancestor x a ∨ r.Ancestor x b → (r.parentsOf x).length ≤ 1) → r.BestBase a b c)
      ∧ (r.Ancestor a b → (r.BestBase a b c ↔ c = a)) := by
  have hacyclic := hr.wellFormed.acyclic
  have hcommon := Repository.mergeBase_common h
  refine ⟨hcommon, fun t x hx => hx.base h, Repository.bestBase_of_best_earlier h,
    Repository.bestBase_of_linear hacyclic h, fun hab => Repository.bestBase_iff_of_ancestor hacyclic hab hcommon⟩

/-- the commit that joins the lagging branch with the one that is ahead -/
def joinedCommit : Commit := mergeCommit lagging "main" olderCommit.id newerCommit.id (some "joined") .empty

/-- the lagging branch after it has been joined with the one that is ahead, without a fast-forward -/
def rejoined : Repository := addCommit lagging joinedCommit

/-- a merge commit of the lagging branch under a new identifier -/
theorem joins_lagging (message : String) {c : Commit}
    (hc : mergeCommit lagging "main" olderCommit.id newerCommit.id (some message) .empty = c)
    (hnewer : c.id ≠ newerCommit.id) (holder : c.id ≠ olderCommit.id) : Joins olderCommit newerCommit c := by
  subst hc
  exact joins_of_make rfl rfl rfl (Ne.symm olderCommit_ne) ⟨hnewer, holder⟩

/-- the lagging branch is joined with the one that is ahead, under any message -/
theorem joined_cleanRun (message : String) {c : Commit}
    (hc : mergeCommit lagging "main" olderCommit.id newerCommit.id (some message) .empty = c)
    (h : Joins olderCommit newerCommit c) : CleanRun (joinedHistory olderCommit newerCommit c) := by
  obtain ⟨o, ho, hstate⟩ := lagging_merge true (some message)
  rw [hc] at hstate
  have hjoined : o.state = joinedHistory olderCommit newerCommit c := hstate
  rw [← hjoined]
  refine lagging_cleanRun.step ho (lagging_reachable.wellFormed.distinct_of_insert (h.ids c (by simp)) ?_ ?_)
  · rw [hjoined]
    exact addCommit_commits _ _
  · simp [lagging, advanced, branched, lone, Ne.symm h.join_ne.1, Ne.symm h.join_ne.2]

theorem joinedCommit_ne_newer : joinedCommit.id ≠ newerCommit.id := by
  rw [joinedCommit, joinedCommit_id, newerCommit_id]
  decide

theorem joinedCommit_ne_older : joinedCommit.id ≠ olderCommit.id := by
  rw [joinedCommit, joinedCommit_id, olderCommit_id]
  decide

theorem rejoined_joins : Joins olderCommit newerCommit joinedCommit :=
  joins_lagging "joined" rfl joinedCommit_ne_newer joinedCommit_ne_older

theorem rejoined_cleanRun : CleanRun rejoined := joined_cleanRun "joined" rfl rejoined_joins

theorem rejoined_parents : rejoined.parentsOf joinedCommit.id = [olderCommit.id, newerCommit.id] :=
  rejoined_joins.parentsOf_join

theorem rejoined_parents_newer : rejoined.parentsOf newerCommit.id = [olderCommit.id] := rejoined_joins.parentsOf_next

theorem rejoined_parents_older : rejoined.parentsOf olderCommit.id = [] := rejoined_joins.parentsOf_root

/-- stored in the joined history are its three commits -/
theorem rejoined_contains {x : CommitId} :
    rejoined.commits.contains x = true ↔ x = olderCommit.id ∨ x = newerCommit.id ∨ x = joinedCommit.id :=
  contains_joinedHistory

theorem rejoined_newer : rejoined.IsParent olderCommit.id newerCommit.id := by
  simp [Repository.IsParent, rejoined_parents_newer]

/-- the branch that is ahead is part of the joined history, but its base with it is the commit before -/
theorem joined_base_is_not_best :
    Reachable rejoined ∧ rejoined.mergeBase newerCommit.id joinedCommit.id = some olderCommit.id
      ∧ rejoined.Ancestor newerCommit.id joinedCommit.id
      ∧ rejoined.CommonAncestor newerCommit.id joinedCommit.id olderCommit.id
      ∧ ¬rejoined.BestBase newerCommit.id joinedCommit.id olderCommit.id := by
  have hreachable := rejoined_cleanRun.reachable
  have hbase := Repository.mergeBase_of_joined hreachable.wellFormed.acyclic rejoined_parents rejoined_newer
  have hancestor : rejoined.Ancestor newerCommit.id joinedCommit.id := by
    refine .of_parent ?_ (.refl _ _)
    rw [Repository.IsParent, rejoined_parents]
    simp
  obtain ⟨hcommon, -, -, -, hbest⟩ := base_is_met_first hreachable hbase
  exact ⟨hreachable, hbase, hancestor, hcommon, fun h => olderCommit_ne ((hbest hancestor).1 h)⟩

end RepoTutor.Transition
