/-
A commit, taken back by a reset to its parent.

A reset that keeps the files leaves the edits that there are and adds, on every other path where the files of the commit
left behind differ from those of the target, an edit with the old content (`get?_keepFiles`). After a commit these are the
paths of the edits that it took, and what is left are the edits that it did not take. So a soft reset to the parent stages
exactly what was staged before, and a mixed one unstages it (`reset_takes_back_commit`).
-/
import RepoTutor.Proofs.Repo.Revisions
import RepoTutor.Proofs.Transition.StagedCommit

namespace RepoTutor.Repo.Repository

open Transition

/-! ## Keeping the files -/

/-- **Keeping the files keeps the edits** and adds one on every other path that is held differently now. -/
theorem get?_keepFiles {r : Repository} (hsettled : Settled r) (old : Tree) (staged : Bool) (p : Path) :
    (keepFiles r old staged).edits.get? p = (r.edits.get? p).or (r.keptEdit old staged p) := by
  have hsame := EditsOnly.foldl (editsOnly_keepContent old staged) (changedPaths old r.headTree) r
  rw [keepFiles, get?_settleEdits, get?_keepPaths, committedContent_editsOnly hsame]
  cases hedit : r.edits.get? p with
  | some e =>
    have hdiffers : r.committedContent p ≠ e.content := (hsettled p e hedit).symm
    simp [Option.filter_some, hdiffers]
  | none => by_cases hheld : r.committedContent p = r.contentIn old p <;> simp [keptEdit, Option.filter_some, hheld]

end RepoTutor.Repo.Repository

namespace RepoTutor.Transition

open Command Repo

/-- a repository with the commits, contents and clock of a later one -/
def withStored (r later : Repository) : Repository :=
  { r with commits := later.commits, blobs := later.blobs, clock := later.clock }

@[simp] theorem headId_withStored (r later : Repository) : (withStored r later).headId = r.headId := rfl

/-! ## HEAD back at the parent -/

section Committed

variable {r : Repository} {d : Draft} {head : CommitId}

/-- HEAD and the branches are where they were -/
theorem resetHead_committed (hhead : r.headId = some head) (hmerge : r.mergeHead = none) :
    resetHead (committed r d) (some head) =
      { withStored r (committed r d) with edits := (committed r d).edits } := by
  have hstored := Repository.storeStaged_eq r
  have hbranches : r.storeStaged.branches = r.branches := by rw [hstored]
  have hplace : r.storeStaged.head = r.head := by rw [hstored]
  cases hr : r.head with
  | attached name =>
    have hback : (r.branches.insert name (d.commitIn r).id).insert name head = r.branches := by
      rw [Repository.headId, hr] at hhead
      refine Table.ext_get? (fun other => ?_)
      by_cases hname : name = other
      · subst hname
        rw [Table.get?_insert, if_pos rfl, ← hhead]
      · simp [hname]
    simp [resetHead, committed, withStored, addCommit, Repository.moveHead, Repository.settleEdits,
      Repository.dropStaged, hplace, hbranches, hr, hback, hmerge]
  | detached id =>
    rw [Repository.headId, hr] at hhead
    cases hhead
    simp [resetHead, committed, withStored, addCommit, Repository.moveHead, Repository.settleEdits,
      Repository.dropStaged, hplace, hbranches, hr, hmerge]

variable (hw : WellFormed r) (hhead : r.headId = some head) (hnew : (d.commitIn r).id ≠ head)

include hw hhead hnew

/-- at the parent, HEAD holds what it held -/
theorem committedContent_withStored (p : Path) :
    (withStored r (committed r d)).committedContent p = r.committedContent p := by
  have hfiles : (withStored r (committed r d)).headTree = r.headTree := by
    have hsame : (withStored r (committed r d)).headId = some head := (headId_withStored _ _).trans hhead
    have hcommits : (withStored r (committed r d)).commits.get? head = r.commits.get? head := by
      rw [withStored, committed_commits, Table.get?_insert, if_neg hnew]
    rw [headTree_of_headId hsame, headTree_of_headId hhead, Repository.treeOf, Option.bind_some, hcommits]
    rfl
  have hblobs : (committed r d).blobs = r.storeStaged.blobs := (Repoints.moveHead _ _).blobs
  have hextends : Table.Extends r.blobs (withStored r (committed r d)).blobs := by
    rw [withStored, hblobs]
    exact Repository.storeStaged_extends r
  rw [Repository.committedContent, hfiles]
  exact Repository.contentIn_extends hextends (fun blob hblob => hw.tree_blob_stored hblob)

variable (hdistinct : DistinctBlobIds r) (hsettled : Settled r) (hmerge : r.mergeHead = none) (hbase : d.base = r.headTree)

include hdistinct hsettled hmerge hbase

theorem settled_resetHead : Settled (resetHead (committed r d) (some head)) := by
  rw [resetHead_committed hhead hmerge, committed_edits hw hdistinct hsettled hbase]
  refine (hsettled.filter (fun _ e => !e.staged)).mono (fun p => ?_) (fun p e he => ⟨e, he, rfl⟩)
  exact committedContent_withStored hw hhead hnew p

/-- what the commit took is an edit again, and what it left is one still -/
theorem get?_keepFiles_resetHead (staged : Bool) (p : Path) :
    (keepFiles (resetHead (committed r d) (some head)) (committed r d).headTree staged).edits.get? p =
      (r.edits.get? p).map (fun e => { e with staged := e.staged && staged }) := by
  have hkept := Repository.get?_keepFiles (settled_resetHead hw hhead hnew hdistinct hsettled hmerge hbase)
    (committed r d).headTree staged p
  have hold : (withStored r (committed r d)).contentIn (committed r d).headTree p =
      (committed r d).committedContent p := rfl
  have hmoved : EditsOnly (withStored r (committed r d)) (resetHead (committed r d) (some head)) := by
    rw [resetHead_committed hhead hmerge]
    exact .of_edits _ _
  have hedits : (resetHead (committed r d) (some head)).edits = r.edits.filter (fun _ e => !e.staged) := by
    rw [resetHead_committed hhead hmerge, committed_edits hw hdistinct hsettled hbase]
  rw [hkept, Repository.keptEdit_editsOnly hmoved, Repository.keptEdit, committedContent_withStored hw hhead hnew, hold,
    committedContent_committed hw hdistinct hbase, hedits, Table.get?_filter]
  cases hedit : r.edits.get? p with
  | none => simp
  | some e =>
    obtain ⟨content, flag⟩ := e
    have hdiffers : r.committedContent p ≠ content := (hsettled p _ hedit).symm
    cases flag with
    | true => simp [Option.filter_some, hdiffers]
    | false => simp [Option.filter_some]

omit hnew in
/-- only edits that are not staged are left, so there is nothing to unstage -/
theorem markStaged_resetHead :
    (resetHead (committed r d) (some head)).markStaged false (fun _ => true) = resetHead (committed r d) (some head) := by
  rw [resetHead_committed hhead hmerge, committed_edits hw hdistinct hsettled hbase]
  have hedits : (r.edits.filter (fun _ e => !e.staged)).map (fun _ e => { e with staged := false }) =
      r.edits.filter (fun _ e => !e.staged) := by
    refine Table.ext_get? (fun p => ?_)
    rw [Table.get?_map, Table.get?_filter]
    cases r.edits.get? p with
    | none => rfl
    | some e =>
      obtain ⟨content, flag⟩ := e
      cases flag <;> simp [Option.filter_some]
  simp [Repository.markStaged, hedits]

/-- **Keeping the files at the parent** leads back to where the commit was made. -/
theorem keepFiles_resetHead (staged : Bool) :
    keepFiles (resetHead (committed r d) (some head)) (committed r d).headTree staged =
      withStored { r with edits := r.edits.map (fun _ e => { e with staged := e.staged && staged }) } (committed r d) := by
  have hedits : (keepFiles (resetHead (committed r d) (some head)) (committed r d).headTree staged).edits =
      r.edits.map (fun _ e => { e with staged := e.staged && staged }) := by
    refine Table.ext_get? (fun p => ?_)
    rw [get?_keepFiles_resetHead hw hhead hnew hdistinct hsettled hmerge hbase, Table.get?_map]
  rw [editsOnly_keepFiles (resetHead (committed r d) (some head)) (committed r d).headTree staged, hedits,
    resetHead_committed hhead hmerge]
  rfl

end Committed

/-! ## Resetting to the parent -/

theorem resolve_headParent {r : Repository} (hw : WellFormed r) {id p : CommitId} (hid : r.headId = some id)
    (hparent : (r.parentsOf id)[0]? = some p) : r.resolve "HEAD~1" = some p := by
  refine hw.resolve_iff_names.2 ⟨"HEAD".toList, "~1".toList, id, [.ancestor 1], by decide, by simp, ?_, ?_, ?_⟩
  · have hone : CountsAs ['1'] 1 := ⟨List.all_eq_true.1 (by decide), by decide, by decide⟩
    exact .ancestor hone .nil
  · exact .head (Or.inl rfl) hid
  · exact .cons (.ancestor (.up hparent (.here p))) (.nil p)

/-- a reset to a revision that resolves is applied, since it makes no commit -/
theorem apply_reset {r : Repository} (hw : WellFormed r) {rev : String} {id : CommitId} (hid : r.resolve rev = some id)
    (mode : ResetMode) :
    apply r (.reset (some rev) mode) = .ok (resetOutcome r.headTree (resetHead r (some id)) mode) := by
  have hstep : step r (.reset (some rev) mode) = .ok (resetOutcome r.headTree (resetHead r (some id)) mode) := by
    simp only [step, reset_eq, resolveRef_eq_ok.2 hid]
    rfl
  refine apply_of_same hw hstep ?_
  rw [(editsOnly_resetOutcome _ _ _).commits, (resetHead_repoints r (some id)).commits]

/-- **A reset to the parent takes a commit back.** Let a commit that amends nothing and stages nothing by itself succeed
in a repository of a run where HEAD stands for a commit and no merge is pending. Then the parent resolves, and a soft
reset to it leads back to the repository before the commit, with its HEAD, branches and edits, and with the same of them
staged; a mixed reset does so as well, but with no edit staged. Only what has been stored, and the clock, stay. -/
theorem reset_takes_back_commit {r : Repository} (hr : Reachable r) (hdistinct : DistinctBlobIds r) {head : CommitId}
    (hhead : r.headId = some head) (hmerge : r.mergeHead = none) {args : CommitArgs} (hall : args.all = false)
    (hamend : args.amend = false) {o : Outcome} (ho : apply r (.commit args) = .ok o) :
    (∃ back, apply o.state (.reset (some "HEAD~1") .soft) = .ok back ∧ back.state = withStored r o.state)
      ∧ ∃ back, apply o.state (.reset (some "HEAD~1") .mixed) = .ok back
        ∧ back.state = withStored (r.markStaged false (fun _ => true)) o.state := by
  have hw := hr.wellFormed
  have hw' := apply_wellFormed hw ho
  obtain ⟨d, hd, -, hstate⟩ := commit_effect (apply_eq_ok.1 ho).1
  rw [show stagedFor r args = r from if_neg (by simp [hall])] at hd hstate
  rw [if_neg (by simp [hamend])] at hd
  obtain ⟨-, message, -, rfl⟩ := freshDraft_effect hd
  generalize hdraft : Draft.mk (r.headId.toList ++ r.mergeHead.toList) message (args.author.getD defaultAuthor) r.headTree = d
    at hstate
  have hbase : d.base = r.headTree := by rw [← hdraft]
  have hparents : (d.commitIn r).parents = [head] := by
    rw [← hdraft, hhead, hmerge]
    rfl
  have hadds : AddsCommit r o.state (d.commitIn r) := hstate ▸ committed_addsCommit r d
  have hparent : (o.state.parentsOf (d.commitIn r).id)[0]? = some head := by
    rw [Repository.parentsOf_of_get? hadds.get?_id, hparents]
    rfl
  -- a commit that had taken the place of its own parent would not have been accepted
  have hnew : (d.commitIn r).id ≠ head := by
    intro hid
    have hself : o.state.IsParent head (d.commitIn r).id := List.mem_of_getElem? hparent
    rw [hid] at hself
    exact hw'.acyclic.irrefl head (.single hself)
  have hresolve : o.state.resolve "HEAD~1" = some head := resolve_headParent hw' hadds.headId hparent
  have hback := keepFiles_resetHead hw hhead hnew hdistinct hr.settled hmerge hbase
  refine ⟨⟨_, apply_reset hw' hresolve .soft, ?_⟩, ⟨_, apply_reset hw' hresolve .mixed, ?_⟩⟩
  · have hkept : r.edits.map (fun _ e => { e with staged := e.staged && true }) = r.edits := by
      refine Table.ext_get? (fun p => ?_)
      rw [Table.get?_map]
      cases r.edits.get? p <;> simp
    simp only [resetOutcome_state]
    rw [hstate, hback, hkept]
  · simp only [resetOutcome_state]
    rw [hstate, markStaged_resetHead hw hhead hdistinct hr.settled hmerge hbase, hback]
    simp [Repository.markStaged]

/-- the staged file is staged again after a soft reset, and an edit that is not staged after a mixed one -/
theorem staged_file_is_taken_back :
    Reachable revising ∧ DistinctBlobIds revising ∧ revising.headId = some filingCommit.id ∧ revising.mergeHead = none
      ∧ ∃ o, apply revising (.commit { message := some "third" }) = .ok o
        ∧ (∃ back, apply o.state (.reset (some "HEAD~1") .soft) = .ok back ∧ back.state.headId = some filingCommit.id
          ∧ back.state.edits = revising.edits)
        ∧ ∃ back, apply o.state (.reset (some "HEAD~1") .mixed) = .ok back
          ∧ back.state.edits.get? "b" = some ⟨some "2\n", false⟩ := by
  have hreachable := revising_cleanRun.reachable
  obtain ⟨o, ho⟩ := revising_commits false
  obtain ⟨⟨soft, hsoft, hsoftState⟩, ⟨mixed, hmixed, hmixedState⟩⟩ :=
    reset_takes_back_commit hreachable revising_distinct revising_headId rfl rfl rfl ho
  refine ⟨hreachable, revising_distinct, revising_headId, rfl, o, ho, ⟨soft, hsoft, ?_, ?_⟩, ⟨mixed, hmixed, ?_⟩⟩
  · rw [hsoftState, headId_withStored, revising_headId]
  · rw [hsoftState]
    rfl
  · rw [hmixedState]
    show (revising.markStaged false (fun _ => true)).edits.get? "b" = _
    rw [Repository.markStaged, Table.get?_map, get?_revising_edits]
    rfl

end RepoTutor.Transition
