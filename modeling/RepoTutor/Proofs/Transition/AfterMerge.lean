/-
What a merge leaves behind.

A merge that commits at once ends in one of four ways: HEAD takes over the source before there is a first commit, HEAD's
history holds the source already, HEAD moves on to the source, or a new commit joins the two (`JoinedBy`). In each of
them HEAD is then at a commit that continues both sides, and nothing else has moved but the branch that HEAD is on
(`Merged`). Pending edits stay as they are: the guard lets them through only on files that do not change, so none of
them is dropped. From what holds after a merge alone it follows that the source is not merged again
(`Merged.again`). The results together are `merge_continues_both`.
-/
import RepoTutor.Proofs.Transition.PendingEdits
import RepoTutor.Proofs.Transition.PendingMerge

namespace RepoTutor.Transition

open Command Repo

/-- a commit that joins two histories, of which neither continues the other or HEAD must not be moved on -/
structure JoinedBy (r : Repository) (ff : FastForward) (theirs : CommitId) (ours base : CommitId) (c : Commit) :
    Prop where
  head : r.headId = some ours
  outside : ¬r.Ancestor theirs ours
  apart : ¬r.Ancestor ours theirs ∨ ff = .never
  found : r.mergeBase ours theirs = some base
  parents : c.parents = [ours, theirs]
  unconflicted : ∀ p, isConflicting (r.treeOf (some base)) (r.treeOf (some ours)) (r.treeOf (some theirs)) p = false
  tree : ∀ p, c.tree.get? p = mergedEntry (r.treeOf (some base)) (r.treeOf (some ours)) (r.treeOf (some theirs)) p

/-- HEAD at a commit that continues both sides, and the rest as it was but for HEAD's branch and a commit that joins -/
structure Merged (r : Repository) (ff : FastForward) (theirs : CommitId) (r' : Repository) (new : CommitId) : Prop where
  headId : r'.headId = some new
  holdsTheirs : r'.Ancestor theirs new
  holdsOurs : ∀ ours, r.headId = some ours → r'.Ancestor ours new
  commits : r'.commits = r.commits ∨ ∃ ours base c, JoinedBy r ff theirs ours base c ∧ c.id = new
    ∧ r'.commits = r.commits.insert c.id c
  currentBranch : r'.currentBranch = r.currentBranch
  branches : ∀ name, r.currentBranch ≠ some name → r'.branches.get? name = r.branches.get? name
  edits : r'.edits = r.edits
  mergeHead : r'.mergeHead = r.mergeHead

namespace Merged

variable {r r' : Repository} {ff : FastForward} {source : String} {ours theirs base new : CommitId} {c : Commit}

/-! ## The ways in which a merge ends -/

theorem upToDate (hours : r.headId = some ours) (hold : r.Ancestor theirs ours) : Merged r ff theirs r ours where
  headId := hours
  holdsTheirs := hold
  holdsOurs x hx := by
    rw [hours] at hx
    cases hx
    exact .refl r ours
  commits := Or.inl rfl
  currentBranch := rfl
  branches _ _ := rfl
  edits := rfl
  mergeHead := rfl

/-- HEAD moves on to the source, also if there was no commit before -/
theorem moved (hsettled : Settled r) (hforward : ∀ ours, r.headId = some ours → r.Ancestor ours theirs)
    (hover : r.overwritten (r.treeOf (some theirs)) = []) :
    Merged r ff theirs (r.moveHead theirs).settleEdits theirs := by
  have hrepoints := Repoints.moveHead r theirs
  have hkept : Settled (r.moveHead theirs) := by
    refine hsettled.of_overwritten (moveHead_edits r theirs) hrepoints.blobs ?_
    rw [headTree_moveHead]
    exact hover
  have hmono : ∀ x y, r.Ancestor x y → (r.moveHead theirs).Ancestor x y :=
    fun x y h => h.mono (hrepoints.commits ▸ .refl _)
  rw [hkept.settleEdits_eq]
  exact {
    headId := headId_moveHead r theirs
    holdsTheirs := .refl _ theirs
    holdsOurs := fun x hx => hmono x theirs (hforward x hx)
    commits := Or.inl hrepoints.commits
    currentBranch := currentBranch_moveHead r theirs
    branches := fun name hname => moveHead_otherBranch hname theirs
    edits := moveHead_edits r theirs
    mergeHead := hrepoints.mergeHead }

/-- a new commit joins the histories -/
theorem joined (hsettled : Settled r) (h : JoinedBy r ff theirs ours base c) (hover : r.overwritten c.tree = []) :
    Merged r ff theirs (addCommit r c).settleEdits c.id := by
  have hrepoints := Repoints.moveHead { r with clock := c.timestamp, commits := r.commits.insert c.id c } c.id
  have hkept : Settled (addCommit r c) := by
    refine hsettled.of_overwritten (addCommit_edits r c) hrepoints.blobs ?_
    rw [headTree_addCommit]
    exact hover
  have hparent : ∀ p ∈ c.parents, (addCommit r c).Ancestor p c.id := by
    intro p hp
    exact .of_parent (Repository.isParent_iff.2 ⟨c, get?_addCommit r c, hp⟩) (.refl _ _)
  rw [hkept.settleEdits_eq]
  exact {
    headId := headId_addCommit r c
    holdsTheirs := hparent theirs (by simp [h.parents])
    holdsOurs := fun x hx => hparent x (by
      obtain rfl : ours = x := Option.some.inj (h.head.symm.trans hx)
      simp [h.parents])
    commits := Or.inr ⟨ours, base, c, h, rfl, addCommit_commits r c⟩
    currentBranch := currentBranch_moveHead _ _
    branches := fun name hname => by
      rw [addCommit_branches, moveHead_otherBranch hname]
    edits := addCommit_edits r c
    mergeHead := hrepoints.mergeHead }

/-! ## The source afterwards -/

/-- a source that is a branch still names a part of HEAD's history -/
theorem resolve_source (h : Merged r ff theirs r' new) (hunmarked : ∀ c ∈ source.toList, isStepMark c = false)
    (hbranch : r.branches.contains source = true) (htheirs : r.resolve source = some theirs) :
    ∃ x, r'.resolve source = some x ∧ r'.Ancestor x new := by
  rw [r'.resolve_of_unmarked hunmarked]
  rw [r.resolve_of_unmarked hunmarked] at htheirs
  unfold Repository.resolveBase at htheirs ⊢
  simp only [String.ofList_toList] at htheirs ⊢
  by_cases hname : source = "HEAD" ∨ source = "@"
  · rw [if_pos hname]
    exact ⟨new, h.headId, .refl _ new⟩
  · rw [if_neg hname] at htheirs ⊢
    obtain ⟨id, hid⟩ := Table.contains_eq_true.1 hbranch
    rw [hid] at htheirs
    obtain rfl : id = theirs := Option.some.inj htheirs
    by_cases hcurrent : r.currentBranch = some source
    · -- the branch that HEAD is on has moved along
      have hmoved : r'.branches.get? source = some new := by
        rw [← headId_of_currentBranch (h.currentBranch.trans hcurrent)]
        exact h.headId
      rw [hmoved]
      exact ⟨new, rfl, .refl _ new⟩
    · rw [h.branches source hcurrent, hid]
      exact ⟨id, rfl, h.holdsTheirs⟩

/-- the source is not merged again -/
theorem again (h : Merged r ff theirs r' new) (hmerge : r.mergeHead = none) (hstaged : r.hasStaged = false)
    {x : CommitId} (hx : r'.resolve source = some x) (hold : r'.Ancestor x new) (ff' : FastForward) (commit : Bool)
    (message : Option String) :
    merge r' source ff' commit message = .ok (say r' ["Already up to date."]) := by
  have hstaged' : r'.hasStaged = false := by
    rw [Repository.hasStaged, h.edits]
    exact hstaged
  have hmerge' : r'.mergeHead = none := h.mergeHead.trans hmerge
  exact merge_upToDate hmerge' hstaged' hx h.headId (Repository.isAncestor_iff.2 hold) ff' commit message

end Merged

/-- a merge that commits at once ends in one of the ways above -/
theorem merge_merged {r : Repository} (hsettled : Settled r) {source : String} {ff : FastForward}
    {message : Option String} {o : Outcome} (ho : merge r source ff true message = .ok o) :
    ∃ theirs new, r.resolve source = some theirs ∧ Merged r ff theirs o.state new := by
  obtain ⟨-, -, theirs, htheirs, hcases⟩ := merge_effect ho
  rcases hcases with ⟨hunborn, hover, hstate⟩ | ⟨ours, hours, hcases⟩
  · refine ⟨theirs, theirs, htheirs, ?_⟩
    rw [hstate]
    exact .moved hsettled (fun x hx => by rw [hunborn] at hx; cases hx) hover
  rcases hcases with ⟨hold, hstate⟩ | ⟨-, hforward, -, hover, hstate⟩ | ⟨hnew, hapart, -, hjoin⟩
  · refine ⟨theirs, ours, htheirs, ?_⟩
    rw [hstate]
    exact .upToDate hours (Repository.isAncestor_iff.1 hold)
  · refine ⟨theirs, theirs, htheirs, ?_⟩
    rw [hstate]
    refine .moved hsettled (fun x hx => ?_) hover
    obtain rfl : ours = x := Option.some.inj (hours.symm.trans hx)
    exact Repository.isAncestor_iff.1 hforward
  · obtain ⟨base, merged, hbase, hmerged, hover, ⟨-, hstate⟩ | ⟨hfalse, -⟩⟩ := trueMerge_effect hjoin
    · obtain ⟨hclear, htree⟩ := mergeTrees_eq_ok.1 hmerged
      have hjoined : JoinedBy r ff theirs ours base (mergeCommit r source ours theirs message merged) := {
        head := hours
        outside := Repository.isAncestor_eq_false.1 hnew
        apart := hapart.imp_left Repository.isAncestor_eq_false.1
        found := hbase
        parents := rfl
        unconflicted := hclear
        tree := htree }
      refine ⟨theirs, (mergeCommit r source ours theirs message merged).id, htheirs, ?_⟩
      rw [hstate]
      exact .joined hsettled hjoined hover
    · cases hfalse

/-- **A merge leaves HEAD at a commit that continues both sides**, the commit of the source and the one that HEAD was
at, if any. It adds no commit unless neither continues the other or HEAD must not be moved on; then it adds one, with the
two as parents, whose files are merged path by path against the base that is found. Pending edits stay as they are, and
so does every branch but the one that HEAD is on. If the source is a branch, merging it again in any way reports that
HEAD is up to date and changes nothing. -/
theorem merge_continues_both {r : Repository} (hr : Reachable r) {source : String} {ff : FastForward}
    {message : Option String} {o : Outcome} (ho : apply r (.merge (.start source ff true message)) = .ok o) :
    ∃ theirs new, r.resolve source = some theirs ∧ Merged r ff theirs o.state new
      ∧ (r.branches.contains source = true → '~' ∉ source.toList → '^' ∉ source.toList →
          ∀ ff' commit message', apply o.state (.merge (.start source ff' commit message')) =
            .ok (say o.state ["Already up to date."])) := by
  have hstep : merge r source ff true message = .ok o := (apply_eq_ok.1 ho).1
  obtain ⟨hmerge, hstaged, -⟩ := merge_effect hstep
  obtain ⟨theirs, new, htheirs, hmerged⟩ := merge_merged hr.settled hstep
  refine ⟨theirs, new, htheirs, hmerged, fun hbranch htilde hcaret ff' commit message' => ?_⟩
  have hunmarked : ∀ c ∈ source.toList, isStepMark c = false := by
    intro c hc
    rw [isStepMark, Bool.or_eq_false_iff, beq_eq_false_iff_ne, beq_eq_false_iff_ne]
    exact ⟨fun heq => htilde (heq ▸ hc), fun heq => hcaret (heq ▸ hc)⟩
  obtain ⟨x, hx, hold⟩ := hmerged.resolve_source hunmarked hbranch htheirs
  have hagain := hmerged.again hmerge hstaged hx hold ff' commit message'
  have hcheck : o.state.check = .ok () := Repository.check_eq_ok.2 (apply_wellFormed hr.wellFormed ho)
  exact apply_eq_ok.2 ⟨hagain, Or.inr hcheck⟩

/-- the commit that brings in the file of the other branch -/
def draftedJoin : Commit :=
  mergeCommit drafting "main" olderCommit.id filingCommit.id (some "joined") filingCommit.tree

theorem draftedJoin_new : drafting.commits.get? draftedJoin.id = none := by
  rw [get?_drafting_commits, draftedJoin, draftedJoin_id, filingCommit_id, olderCommit_id]
  decide

theorem drafting_joins :
    ∃ o, apply drafting (.merge (.start "main" .never true (some "joined"))) = .ok o
      ∧ o.state.commits = drafting.commits.insert draftedJoin.id draftedJoin := by
  obtain ⟨o, ho, hstate⟩ := drafting_merge true (some "joined")
  have hcommits : o.state.commits = drafting.commits.insert draftedJoin.id draftedJoin := by
    rw [hstate]
    exact addCommit_commits _ _
  exact ⟨o, apply_of_step drafting_wellFormed ho (drafting_wellFormed.distinct_of_insert rfl hcommits draftedJoin_new),
    hcommits⟩

/-- the commit is added, the edit of another file stays, and there is nothing to merge again -/
theorem draft_is_merged_once :
    Reachable drafting ∧ ∃ o new, apply drafting (.merge (.start "main" .never true (some "joined"))) = .ok o
      ∧ o.state.headId = some new ∧ o.state.Ancestor olderCommit.id new ∧ o.state.Ancestor filingCommit.id new
      ∧ o.state.commits = drafting.commits.insert draftedJoin.id draftedJoin ∧ o.state.edits = drafting.edits
      ∧ apply o.state (.merge (.start "main" .only true none)) = .ok (say o.state ["Already up to date."]) := by
  have hreachable := drafting_cleanRun.reachable
  obtain ⟨o, ho, hcommits⟩ := drafting_joins
  obtain ⟨theirs, new, htheirs, hmerged, hagain⟩ := merge_continues_both hreachable ho
  obtain rfl : filingCommit.id = theirs := Option.some.inj (drafting_resolve.symm.trans htheirs)
  exact ⟨hreachable, o, new, ho, hmerged.headId, hmerged.holdsOurs _ drafting_headId, hmerged.holdsTheirs, hcommits,
    hmerged.edits, hagain rfl (by decide) (by decide) .only true none⟩

end RepoTutor.Transition
