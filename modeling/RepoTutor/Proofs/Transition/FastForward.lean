/-
A fast-forward against the merge commit that could have been made instead.

When the merged commit continues HEAD, a merge moves HEAD there, or joins the two with a commit whose files come from a
three-way merge. `joined_agrees_iff` says exactly when both leave the same files: the base that the search finds has to
agree with HEAD on every path on which the two sides differ. This is so whenever the base is HEAD itself, as it is when
the newer history enters HEAD's history only at HEAD (`Repository.EntersAt`); a side branch that joins in from further
back can make the search find an older base, and then the merge can conflict or keep what the newer commit changed.
-/
import RepoTutor.Proofs.Repo.MergeBase
import RepoTutor.Proofs.Transition.EmptyCommits

namespace RepoTutor.Transition

open Command Repo

/-! ## Both ways to merge a commit that continues HEAD -/

section Merge

variable {r : Repository} {source : String} {ours theirs : CommitId}

theorem not_isAncestor_of_newer (hacyclic : r.Acyclic) (hnewer : r.ProperAncestor ours theirs) :
    r.isAncestor theirs ours = false := by
  rw [Repository.isAncestor_eq_false]
  intro hold
  have heq := hacyclic.antisymm hnewer.ancestor hold
  exact hacyclic.irrefl ours (heq ▸ hnewer)

/-- a merge that is allowed to moves HEAD when the other commit continues it -/
theorem merge_allow_effect (hacyclic : r.Acyclic) (hours : r.headId = some ours) (htheirs : r.resolve source = some theirs)
    (hnewer : r.ProperAncestor ours theirs) {commit : Bool} {message : Option String} {o : Outcome}
    (h : merge r source .allow commit message = .ok o) :
    r.mergeHead = none ∧ r.hasStaged = false ∧ r.overwritten (r.treeOf (some theirs)) = []
      ∧ o.state = (r.moveHead theirs).settleEdits := by
  obtain ⟨hmerge, hstaged, theirs', htheirs', hcases⟩ := merge_effect h
  cases htheirs.symm.trans htheirs'
  refine ⟨hmerge, hstaged, ?_⟩
  rcases hcases with ⟨hunborn, -, -⟩ | ⟨ours', hours', ⟨hold, -⟩ | ⟨-, -, -, hover, hstate⟩ | ⟨-, hapart, -⟩⟩
  · rw [hours] at hunborn
    cases hunborn
  · cases hours.symm.trans hours'
    rw [not_isAncestor_of_newer hacyclic hnewer] at hold
    cases hold
  · exact ⟨hover, hstate⟩
  · cases hours.symm.trans hours'
    rcases hapart with hapart | hnever
    · rw [Repository.isAncestor_iff.2 hnewer.ancestor] at hapart
      cases hapart
    · cases hnever

theorem merge_allow_succeeds (hacyclic : r.Acyclic) (hours : r.headId = some ours)
    (htheirs : r.resolve source = some theirs) (hnewer : r.ProperAncestor ours theirs) (hmerge : r.mergeHead = none)
    (hstaged : r.hasStaged = false) (hover : r.overwritten (r.treeOf (some theirs)) = []) (commit : Bool)
    (message : Option String) :
    ∃ o, merge r source .allow commit message = .ok o ∧ o.state = (r.moveHead theirs).settleEdits := by
  refine ⟨say (r.moveHead theirs).settleEdits ["Updating " ++ short ours ++ ".." ++ short theirs, "Fast-forward",
    filesChangedLine (changedPaths (r.treeOf (some ours)) (r.treeOf (some theirs))).length], ?_, rfl⟩
  simp [merge, resolveRef, hmerge, hstaged, htheirs, hours, not_isAncestor_of_newer hacyclic hnewer,
    Repository.isAncestor_iff.2 hnewer.ancestor, advance, checkOverwrite_eq_ok.2 hover, bind, Except.bind, pure,
    Except.pure]

/-- a merge that must not move HEAD joins the histories -/
theorem merge_never_eq (hacyclic : r.Acyclic) (hours : r.headId = some ours) (htheirs : r.resolve source = some theirs)
    (hnewer : r.ProperAncestor ours theirs) (hmerge : r.mergeHead = none) (hstaged : r.hasStaged = false)
    (commit : Bool) (message : Option String) :
    merge r source .never commit message = trueMerge r source ours theirs commit message :=
  merge_eq_trueMerge hmerge hstaged htheirs hours (not_isAncestor_of_newer hacyclic hnewer) (Or.inr rfl) (by simp) commit
    message

/-- joined histories are committed exactly when no path is in conflict, if pending edits allow to move HEAD -/
theorem trueMerge_succeeds_iff (hours : r.headId = some ours) {base : CommitId}
    (hbase : r.mergeBase ours theirs = some base) (hover : r.overwritten (r.treeOf (some theirs)) = [])
    (message : Option String) :
    (∃ o, trueMerge r source ours theirs true message = .ok o) ↔
      ∀ p, isConflicting (r.treeOf (some base)) (r.treeOf (some ours)) (r.treeOf (some theirs)) p = false := by
  constructor
  · rintro ⟨o, ho⟩
    obtain ⟨base', merged, hbase', hmerged, -⟩ := trueMerge_effect ho
    cases hbase.symm.trans hbase'
    exact (mergeTrees_eq_ok.1 hmerged).1
  · intro hnone
    obtain ⟨merged, hmerged⟩ := mergeTrees_of_noConflict hnone
    have hentry := (mergeTrees_eq_ok.1 hmerged).2
    -- a path with a pending edit is alike on both sides, so it is in the merged tree as it is at HEAD
    have hmergedOver : r.overwritten merged = [] := by
      refine overwritten_eq_nil_iff.2 (fun p hp => ?_)
      have heq := overwritten_eq_nil_iff.1 hover p hp
      rw [headTree_of_headId hours] at heq ⊢
      rw [hentry p, mergedEntry, if_pos (Or.inl heq)]
    obtain ⟨o, ho, -⟩ := trueMerge_succeeds hbase hmerged hmergedOver source true message
    exact ⟨o, ho⟩

/-- the commit that joins the histories, and its files -/
theorem trueMerge_headCommit {message : Option String} {o : Outcome} {base : CommitId}
    (hbase : r.mergeBase ours theirs = some base) (h : trueMerge r source ours theirs true message = .ok o) :
    ∃ c, o.state.headCommit = some c ∧ c.parents = [ours, theirs]
      ∧ mergeTrees (r.treeOf (some base)) (r.treeOf (some ours)) (r.treeOf (some theirs)) = .ok c.tree := by
  obtain ⟨base', merged, hbase', hmerged, -, ⟨-, hstate⟩ | ⟨hfalse, -⟩⟩ := trueMerge_effect h
  · cases hbase.symm.trans hbase'
    refine ⟨mergeCommit r source ours theirs message merged, ?_, rfl, hmerged⟩
    rw [hstate, (editsOnly_settleEdits _).headCommit, headCommit_addCommit]
  · cases hfalse

end Merge

/-- **When a merge commit leaves the files of a fast-forward.** Let the merged commit continue HEAD and let the merge
succeed as a fast-forward. Then the search finds a base in HEAD's history; the merge commit can be made exactly when no
path is in conflict against that base; and it leaves the files of the fast-forward exactly when HEAD agrees with the
base on every path on which the two sides differ, so always when the base is HEAD. -/
theorem joined_agrees_iff {r : Repository} (hr : Reachable r) {source : String} {ours theirs : CommitId}
    (hours : r.headId = some ours) (htheirs : r.resolve source = some theirs) (hnewer : r.ProperAncestor ours theirs)
    {commit : Bool} {given : Option String} {forward : Outcome}
    (hforward : apply r (.merge (.start source .allow commit given)) = .ok forward) (message : Option String)
    (hdistinct : ∀ o, step r (.merge (.start source .never true message)) = .ok o → DistinctCommitIds r o.state) :
    forward.state.headTree = r.treeOf (some theirs) ∧ ∃ base, r.mergeBase ours theirs = some base ∧ r.Ancestor base ours
      ∧ ((∃ o, apply r (.merge (.start source .never true message)) = .ok o) ↔
          ∀ p, isConflicting (r.treeOf (some base)) (r.treeOf (some ours)) (r.treeOf (some theirs)) p = false)
      ∧ ((∃ o c, apply r (.merge (.start source .never true message)) = .ok o ∧ o.state.headCommit = some c
            ∧ c.parents = [ours, theirs] ∧ c.tree = forward.state.headTree) ↔
          ∀ p, (r.treeOf (some ours)).get? p = (r.treeOf (some theirs)).get? p
            ∨ (r.treeOf (some ours)).get? p = (r.treeOf (some base)).get? p)
      ∧ (r.EntersAt ours theirs → base = ours) := by
  have hw := hr.wellFormed
  obtain ⟨hmerge, hstaged, hover, hstate⟩ :=
    merge_allow_effect hw.acyclic hours htheirs hnewer (apply_eq_ok.1 hforward).1
  have htree : forward.state.headTree = r.treeOf (some theirs) := by
    rw [hstate, (editsOnly_settleEdits _).headTree, headTree_moveHead]
  have hjoin : apply r (.merge (.start source .never true message)) = trueMerge r source ours theirs true message :=
    (apply_eq_step hw hdistinct).trans
      (merge_never_eq hw.acyclic hours htheirs hnewer hmerge hstaged true message)
  obtain ⟨base, hbase⟩ := Option.isSome_iff_exists.1
    (Repository.mergeBase_isSome_iff.2 ⟨ours, Repository.Ancestor.refl r ours, hnewer.ancestor⟩)
  have hsucceeds : (∃ o, trueMerge r source ours theirs true message = .ok o) ↔ _ :=
    trueMerge_succeeds_iff hours hbase hover message
  rw [hjoin, htree]
  refine ⟨rfl, base, hbase, (Repository.mergeBase_common hbase).1, hsucceeds, ?_, fun henters => ?_⟩
  · rw [← mergeTrees_eq_theirs_iff]
    constructor
    · rintro ⟨o, c, ho, hc, -, hfiles⟩
      obtain ⟨c', hc', -, hmerged⟩ := trueMerge_headCommit hbase ho
      obtain rfl := Option.some.inj (hc.symm.trans hc')
      rw [hmerged, hfiles]
    · intro hmerged
      obtain ⟨o, ho⟩ := hsucceeds.2 (mergeTrees_eq_ok.1 hmerged).1
      obtain ⟨c, hc, hparents, hmerged'⟩ := trueMerge_headCommit hbase ho
      refine ⟨o, c, ho, hc, hparents, ?_⟩
      exact (Except.ok.inj (hmerged.symm.trans hmerged')).symm
  · rw [Repository.mergeBase_eq_of_entersAt hw.acyclic hnewer henters] at hbase
    exact (Option.some.inj hbase).symm

/-! ## A branch that lags behind -/

theorem lagging_headId : lagging.headId = some olderCommit.id := by
  simp [Repository.headId, lagging, advanced, branched]

theorem lagging_resolve : lagging.resolve "main" = some newerCommit.id := by
  simp [Repository.resolve, Repository.resolveBase, lagging, advanced, isStepMark, parseSteps?]

theorem lagging_newer : lagging.ProperAncestor olderCommit.id newerCommit.id :=
  .single (Repository.isParent_iff.2 ⟨newerCommit, by simp [lagging, advanced], by simp [newerCommit, Commit.make]⟩)

/-- the two branches can be joined, without any files -/
theorem lagging_merged :
    ∃ base, lagging.mergeBase olderCommit.id newerCommit.id = some base
      ∧ mergeTrees (lagging.treeOf (some base)) (lagging.treeOf (some olderCommit.id))
          (lagging.treeOf (some newerCommit.id)) = .ok .empty := by
  obtain ⟨base, hbase⟩ := Option.isSome_iff_exists.1
    (Repository.mergeBase_isSome_iff.2 ⟨olderCommit.id, Repository.Ancestor.refl _ _, lagging_newer.ancestor⟩)
  refine ⟨base, hbase, ?_⟩
  simp only [lagging_treeOf]
  rfl

/-- without a fast-forward, the branch that is ahead is joined at once or by the next commit -/
theorem lagging_merge (commit : Bool) (message : Option String) :
    ∃ o, step lagging (.merge (.start "main" .never commit message)) = .ok o ∧ o.state =
      if commit then
        (addCommit lagging (mergeCommit lagging "main" olderCommit.id newerCommit.id message .empty)).settleEdits
      else { lagging with mergeHead := some newerCommit.id } := by
  have hacyclic := lagging_reachable.wellFormed.acyclic
  obtain ⟨base, hbase, hmerged⟩ := lagging_merged
  obtain ⟨o, ho, hstate⟩ := trueMerge_succeeds hbase hmerged rfl "main" commit message
  refine ⟨o, (merge_never_eq hacyclic lagging_headId lagging_resolve lagging_newer rfl rfl commit message).trans ho, ?_⟩
  rw [hstate, lagging_treeOf]
  rfl

theorem joinedCommit_id :
    (mergeCommit lagging "main" olderCommit.id newerCommit.id (some "joined") .empty).id =
      "0fef6b87b6340e9a6ab52218651be59203fe5c84101f842b905f9270979d9b23" := by
  rw [mergeCommit, Commit.make_id, olderCommit_id, newerCommit_id]
  decide +kernel

/-- a lagging branch: the merge commit can be made, and has the files of the commit that it could have moved to -/
theorem joined_agrees_for_lagging_branch :
    Reachable lagging ∧ lagging.headId = some olderCommit.id ∧ lagging.resolve "main" = some newerCommit.id ∧
      ∃ o c, apply lagging (.merge (.start "main" .never true (some "joined"))) = .ok o ∧ o.state.headCommit = some c
        ∧ c.parents = [olderCommit.id, newerCommit.id] ∧ c.tree = lagging.treeOf (some newerCommit.id) := by
  have hw := lagging_reachable.wellFormed
  obtain ⟨forward, hforward, hstate⟩ :=
    merge_allow_succeeds hw.acyclic lagging_headId lagging_resolve lagging_newer rfl rfl rfl true none
  have hallowed : apply lagging (.merge (.start "main" .allow true none)) = .ok forward := by
    refine (apply_eq_step hw (fun o ho => hw.distinct_of_same ?_)).trans hforward
    rw [Except.ok.inj (ho.symm.trans hforward), hstate]
    exact moveHead_commits lagging newerCommit.id
  have hdistinct : ∀ o, step lagging (.merge (.start "main" .never true (some "joined"))) = .ok o →
      DistinctCommitIds lagging o.state := by
    intro o ho
    rw [step, merge_never_eq hw.acyclic lagging_headId lagging_resolve lagging_newer rfl rfl] at ho
    obtain ⟨base, merged, -, hmerged, -, ⟨-, hstate⟩ | ⟨hfalse, -⟩⟩ := trueMerge_effect ho
    · simp only [lagging_treeOf] at hmerged
      obtain rfl : .empty = merged := Except.ok.inj hmerged
      refine hw.distinct_of_insert rfl (by rw [hstate]; exact addCommit_commits _ _) ?_
      rw [joinedCommit_id]
      simp [lagging, advanced, branched, lone, olderCommit_id, newerCommit_id]
    · cases hfalse
  obtain ⟨htree, base, -, -, -, hagrees, -⟩ :=
    joined_agrees_iff lagging_reachable lagging_headId lagging_resolve lagging_newer hallowed (some "joined") hdistinct
  refine ⟨lagging_reachable, lagging_headId, lagging_resolve, ?_⟩
  rw [← htree]
  exact hagrees.2 (fun p => Or.inl (by rw [lagging_treeOf, lagging_treeOf]))

end RepoTutor.Transition
