/-
A merge that is left for the next commit.

A merge that stops before committing stages the merged content of every path that it changes; nothing else changes but the
pending merge (`pendingMerge`). No edit was staged before and none sits on a path that the merge changes (`Mergeable`), so
the staged edits are exactly the merged ones (`get?_pendingMerge`). Two results follow:
- `abort_undoes_merge`: giving the merge up leads back to the repository before it, in every part;
- `concluding_is_merging`: a commit that concludes the merge makes the very repository that the merge would have made at
  once. The staged contents have the identifiers that they were merged under, so the tree with them in it is the merged
  tree (`stagedTree_pendingMerge`), and storing them stores nothing new (`storeStaged_pendingMerge`).
-/
import RepoTutor.Proofs.Transition.FastForward
import RepoTutor.Proofs.Transition.FileView

namespace RepoTutor.Repo

/-! ## Stored contents -/

namespace WellFormed

variable {r : Repository} (h : WellFormed r) {tree tree' : Tree} {p : Path}

include h

/-- the content of a stored file tells the identifier that the tree holds -/
theorem map_blobId_contentIn (hstored : ∀ blob, tree.get? p = some blob → r.blobs.contains blob = true) :
    (r.contentIn tree p).map blobId = tree.get? p := by
  unfold Repository.contentIn
  cases hblob : tree.get? p with
  | none => rfl
  | some blob =>
    obtain ⟨content, hcontent⟩ := Table.contains_eq_true.1 (hstored blob hblob)
    rw [Option.bind_some, hcontent, Option.map_some, ← h.blob blob content hcontent]

/-- trees that hold a path differently show it with different contents -/
theorem get?_eq_of_contentIn_eq (hstored : ∀ blob, tree.get? p = some blob → r.blobs.contains blob = true)
    (hstored' : ∀ blob, tree'.get? p = some blob → r.blobs.contains blob = true)
    (heq : r.contentIn tree p = r.contentIn tree' p) : tree.get? p = tree'.get? p := by
  rw [← h.map_blobId_contentIn hstored, ← h.map_blobId_contentIn hstored', heq]

end WellFormed

namespace Repository

theorem storeBlobs_of_stored {contents : List String} {r : Repository}
    (h : ∀ content ∈ contents, r.blobs.contains (blobId content) = true) : contents.foldl storeBlob r = r := by
  induction contents with
  | nil => rfl
  | cons content contents ih =>
    have hsame : r.storeBlob content = r := if_pos (h content List.mem_cons_self)
    rw [List.foldl_cons, hsame]
    exact ih (fun other hother => h other (List.mem_cons_of_mem _ hother))

/-- without staged edits, no edit is staged -/
theorem unstaged_of_hasStaged {r : Repository} (h : r.hasStaged = false) {p : Path} {e : Edit}
    (he : r.edits.get? p = some e) : e.staged = false := by
  simp only [hasStaged, Table.any, List.any_eq_false] at h
  simpa using h (p, e) (Table.get?_eq_some_iff.1 he)

end Repository

end RepoTutor.Repo

namespace RepoTutor.Transition

open Command Repo

/-- a merged tree whose contents are stored, in a repository where no edit is staged or on a path that would change -/
structure Mergeable (r : Repository) (merged : Tree) : Prop where
  wellFormed : WellFormed r
  unstaged : ∀ p e, r.edits.get? p = some e → e.staged = false
  free : ∀ p e, r.edits.get? p = some e → r.headTree.get? p = merged.get? p
  stored : ∀ p blob, merged.get? p = some blob → r.blobs.contains blob = true

/-- the merged contents are staged and the merge is pending -/
def pendingMerge (r : Repository) (merged : Tree) (theirs : CommitId) : Repository :=
  { (changedPaths r.headTree merged).foldl (stageMerged merged) r with mergeHead := some theirs }

theorem pendingMerge_eq (r : Repository) (merged : Tree) (theirs : CommitId) :
    pendingMerge r merged theirs = { r with edits := (pendingMerge r merged theirs).edits, mergeHead := some theirs } := by
  have hedits := editsOnly_stagePaths merged (changedPaths r.headTree merged) r
  unfold pendingMerge
  rw [hedits]

/-! ## Staged contents -/

/-- staging merged contents that differ from the committed ones: each listed path gets its edit -/
theorem get?_foldl_stageMerged {merged : Tree} (paths : List Path) (r : Repository)
    (hchanged : ∀ p ∈ paths, r.committedContent p ≠ r.contentIn merged p) (p : Path) :
    (paths.foldl (stageMerged merged) r).edits.get? p =
      if p ∈ paths then some ⟨r.contentIn merged p, true⟩ else r.edits.get? p := by
  induction paths generalizing r with
  | nil => simp
  | cons path paths ih =>
    have hedits := editsOnly_stageMerged merged r path
    have hcontent : ∀ q, (stageMerged merged r path).contentIn merged q = r.contentIn merged q :=
      Repository.contentIn_congr hedits.blobs merged
    have hcommitted : ∀ q, (stageMerged merged r path).committedContent q = r.committedContent q :=
      Repository.committedContent_editsOnly hedits
    have hpath : r.committedContent path ≠ r.contentIn merged path := hchanged path List.mem_cons_self
    have hset : (stageMerged merged r path).edits.get? p =
        if path = p then some ⟨r.contentIn merged path, true⟩ else r.edits.get? p := by
      rw [stageMerged, Repository.get?_setEdit, if_neg hpath]
    rw [List.foldl_cons, ih _ (fun q hq => ?_), hcontent, hset]
    · by_cases hp : path = p
      · subst hp
        simp
      · simp [hp, Ne.symm hp]
    · rw [hcontent, hcommitted]
      exact hchanged q (List.mem_cons_of_mem _ hq)

namespace Mergeable

variable {r : Repository} {merged : Tree} (h : Mergeable r merged) (theirs : CommitId)

include h

/-- **The edits of a pending merge**: the merged content where HEAD holds another one, and else what was pending before -/
theorem get?_pendingMerge (p : Path) :
    (pendingMerge r merged theirs).edits.get? p =
      if r.headTree.get? p = merged.get? p then r.edits.get? p else some ⟨r.contentIn merged p, true⟩ := by
  have hchanged : ∀ q ∈ changedPaths r.headTree merged, r.committedContent q ≠ r.contentIn merged q := by
    intro q hq heq
    exact mem_changedPaths.1 hq
      (h.wellFormed.get?_eq_of_contentIn_eq (fun blob hb => h.wellFormed.tree_blob_stored hb) (h.stored q) heq)
  have hstaged := get?_foldl_stageMerged (changedPaths r.headTree merged) r hchanged p
  simp only [mem_changedPaths, ite_not] at hstaged
  exact hstaged

/-- the edits that are not staged are those from before -/
theorem filter_unstaged : (pendingMerge r merged theirs).edits.filter (fun _ e => !e.staged) = r.edits := by
  refine Table.ext_get? (fun p => ?_)
  rw [Table.get?_filter, h.get?_pendingMerge]
  cases hedit : r.edits.get? p with
  | none =>
    split
    · rfl
    · simp [Option.filter_some]
  | some e =>
    rw [if_pos (h.free p e hedit), Option.filter_some, h.unstaged p e hedit]
    rfl

/-- the edits that are staged are the merged ones -/
theorem filter_staged (p : Path) :
    ((pendingMerge r merged theirs).edits.get? p).filter Edit.staged =
      if r.headTree.get? p = merged.get? p then none else some ⟨r.contentIn merged p, true⟩ := by
  rw [h.get?_pendingMerge]
  split
  · cases hedit : r.edits.get? p with
    | none => rfl
    | some e => rw [Option.filter_some, h.unstaged p e hedit, if_neg (by simp)]
  · rw [Option.filter_some, if_pos rfl]

/-- what is staged on top of HEAD's files is the merged tree -/
theorem stagedTree_pendingMerge : (pendingMerge r merged theirs).stagedTree r.headTree = merged := by
  refine Table.ext_get? (fun p => ?_)
  rw [Repository.get?_stagedTree, h.filter_staged]
  by_cases hp : r.headTree.get? p = merged.get? p
  · rw [if_pos hp]
    exact hp
  · rw [if_neg hp]
    exact h.wellFormed.map_blobId_contentIn (h.stored p)

/-- the merged contents are stored already -/
theorem storeStaged_pendingMerge : (pendingMerge r merged theirs).storeStaged = pendingMerge r merged theirs := by
  refine Repository.storeBlobs_of_stored (fun content hcontent => ?_)
  obtain ⟨⟨p, staged⟩, hmem, hstaged⟩ := List.mem_filterMap.1 hcontent
  obtain ⟨e, he, hflag, rfl⟩ := Repository.mem_stagedEdits.1 hmem
  have hfilter : ((pendingMerge r merged theirs).edits.get? p).filter Edit.staged = some e := by
    rw [he, Option.filter_some, if_pos hflag]
  rw [h.filter_staged] at hfilter
  split at hfilter
  · cases hfilter
  · cases hfilter
    have hblob : (r.contentIn merged p).map blobId = merged.get? p :=
      h.wellFormed.map_blobId_contentIn (h.stored p)
    have hsome : r.contentIn merged p = some content := hstaged
    rw [hsome, Option.map_some] at hblob
    rw [pendingMerge_eq]
    exact h.stored p _ hblob.symm

/-- giving the merge up undoes it -/
theorem dropStaged_pendingMerge (hmerge : r.mergeHead = none) :
    { (pendingMerge r merged theirs).dropStaged with mergeHead := none } = r := by
  have hedits := h.filter_unstaged theirs
  rw [pendingMerge_eq] at hedits ⊢
  rw [Repository.dropStaged, hedits, ← hmerge]

/-- committing the merge is adding its commit to what was before -/
theorem committed_pendingMerge (hmerge : r.mergeHead = none) {ours : CommitId} (source message : String) :
    committed (pendingMerge r merged theirs) ⟨[ours, theirs], message, defaultAuthor, r.headTree⟩ =
      (addCommit r (mergeCommit r source ours theirs (some message) merged)).settleEdits := by
  have hclock : (pendingMerge r merged theirs).clock = r.clock := by rw [pendingMerge_eq]
  have hmade : Draft.commitIn (pendingMerge r merged theirs) ⟨[ours, theirs], message, defaultAuthor, r.headTree⟩ =
      mergeCommit r source ours theirs (some message) merged := by
    rw [Draft.commitIn, h.stagedTree_pendingMerge, hclock]
    rfl
  have hdropped : ∀ c, { (addCommit (pendingMerge r merged theirs) c).dropStaged with mergeHead := none } = addCommit r c := by
    intro c
    have hback := h.dropStaged_pendingMerge theirs hmerge
    have hhead : (pendingMerge r merged theirs).head = r.head := by rw [pendingMerge_eq]
    conv => rhs; rw [← hback]
    simp only [addCommit, Repository.moveHead, Repository.dropStaged, hhead]
    cases r.head <;> rfl
  rw [committed, h.storeStaged_pendingMerge, hmade, hdropped]

end Mergeable

/-! ## Merges that stop before committing -/

section Stopped

variable {r : Repository} {source : String} {ff : FastForward}

/-- the tree of a merge that goes ahead can be merged into the repository -/
theorem mergeable_of_mergeTrees (hw : WellFormed r) {ours theirs base : CommitId} {merged : Tree}
    (hstaged : r.hasStaged = false)
    (hmerged : mergeTrees (r.treeOf (some base)) (r.treeOf (some ours)) (r.treeOf (some theirs)) = .ok merged)
    (hover : r.overwritten merged = []) : Mergeable r merged where
  wellFormed := hw
  unstaged _ _ he := Repository.unstaged_of_hasStaged hstaged he
  free p e he := overwritten_eq_nil_iff.1 hover p (Table.mem_keys.2 ⟨e, he⟩)
  stored _ _ hblob := hw.merged_stored hmerged hblob

/-- a merge that has stopped before committing joins two histories, and would also have made the commit -/
theorem merge_stopped {given : Option String} {p : Outcome} (hw : WellFormed r)
    (hp : merge r source ff false given = .ok p) (hpending : p.state.mergeHead.isSome = true) :
    ∃ ours theirs merged, r.headId = some ours ∧ r.mergeHead = none ∧ Mergeable r merged
      ∧ p.state = pendingMerge r merged theirs
      ∧ ∀ message, ∃ o, merge r source ff true message = .ok o
          ∧ o.state = (addCommit r (mergeCommit r source ours theirs message merged)).settleEdits := by
  obtain ⟨hmerge, hstaged, theirs, htheirs, hcases⟩ := merge_effect hp
  -- only a true merge can leave a merge pending
  have hmoved : p.state ≠ (r.moveHead theirs).settleEdits := by
    intro hstate
    rw [hstate, show (r.moveHead theirs).settleEdits.mergeHead = r.mergeHead from
      (Repoints.moveHead r theirs).settleEdits.mergeHead, hmerge] at hpending
    cases hpending
  rcases hcases with ⟨-, -, hstate⟩ | ⟨ours, hours, ⟨-, hstate⟩ | ⟨-, -, -, -, hstate⟩ | ⟨hnew, hapart, honly, htrue⟩⟩
  · exact absurd hstate hmoved
  · rw [hstate, hmerge] at hpending
    cases hpending
  · exact absurd hstate hmoved
  · obtain ⟨base, merged, hbase, hmerged, hover, ⟨hfalse, -⟩ | ⟨-, hstate⟩⟩ := trueMerge_effect htrue
    · cases hfalse
    · refine ⟨ours, theirs, merged, hours, hmerge, mergeable_of_mergeTrees hw hstaged hmerged hover, ?_, ?_⟩
      · rw [hstate, ← headTree_of_headId hours]
        rfl
      · intro message
        obtain ⟨o, ho, hjoined⟩ := trueMerge_succeeds hbase hmerged hover source true message
        exact ⟨o, (merge_eq_trueMerge hmerge hstaged htheirs hours hnew hapart honly true message).trans ho, hjoined⟩

end Stopped

/-! ## A merge that brings in a file -/

/-- a commit that adds a file -/
def filingCommit : Commit :=
  .make [olderCommit.id] defaultAuthor 2 "second" (Table.empty.insert "a" (blobId "1\n"))

theorem filedBlob_id : blobId "1\n" = "6fb72e640d3095e23e7681b60b90d7ba23673604682a6840b6afd2d504d1c6f5" := by
  rw [show "1\n" = String.ofList ['1', '\n'] from rfl, blobId, digest_ofList]
  decide +kernel

theorem filingCommit_id : filingCommit.id = "4af41ee048f537e6717c21b435421d398e08c784b65c769a4fdb8a07be1df2a3" := by
  rw [filingCommit, Commit.make_id, olderCommit_id, filedBlob_id]
  decide +kernel

theorem olderCommit_ne_filing : olderCommit.id ≠ filingCommit.id := by
  rw [olderCommit_id, filingCommit_id]
  decide

theorem get?_filingCommit_tree (p : Path) :
    filingCommit.tree.get? p = if "a" = p then some (blobId "1\n") else none := by
  simp [filingCommit, Commit.make, Table.get?_insert]

/-- HEAD on a branch that lags behind by a file, and an edit of another file -/
def drafting : Repository where
  commits := branched.commits.insert filingCommit.id filingCommit
  blobs := Table.empty.insert (blobId "1\n") "1\n"
  branches := branched.branches.insert "main" filingCommit.id
  head := .attached "old"
  edits := Table.empty.insert "b" ⟨some "2\n", false⟩
  mergeHead := none
  clock := 2

theorem get?_drafting_commits (id : CommitId) :
    drafting.commits.get? id =
      if filingCommit.id = id then some filingCommit else if olderCommit.id = id then some olderCommit else none := by
  simp [drafting, branched, lone, Table.get?_insert]

theorem drafting_headId : drafting.headId = some olderCommit.id := by
  simp [Repository.headId, drafting, branched]

theorem drafting_resolve : drafting.resolve "main" = some filingCommit.id := by
  simp [Repository.resolve, Repository.resolveBase, drafting, isStepMark, parseSteps?]

theorem drafting_treeOf_older : drafting.treeOf (some olderCommit.id) = .empty := by
  rw [Repository.treeOf, Option.bind_some, get?_drafting_commits, if_neg (Ne.symm olderCommit_ne_filing), if_pos rfl]
  rfl

theorem drafting_headTree : drafting.headTree = .empty := by
  rw [headTree_of_headId drafting_headId, drafting_treeOf_older]

theorem drafting_treeOf_filing : drafting.treeOf (some filingCommit.id) = filingCommit.tree := by
  rw [Repository.treeOf, Option.bind_some, get?_drafting_commits, if_pos rfl]

/-- a file is written with a content that HEAD does not hold -/
theorem CleanRun.writeLine {r : Repository} (h : CleanRun r) (path : Path) {text content : String}
    (hcontent : text ++ "\n" = content) (hother : r.committedContent path ≠ some content) :
    CleanRun { r with edits := r.edits.insert path ⟨some content, false⟩ } := by
  have hstep : Transition.step r (.writeFile path text false) =
      .ok (silently { r with edits := r.edits.insert path ⟨some content, false⟩ }) := by
    simp [Transition.step, writeFile, Repository.setEdit, hcontent, hother]
  exact h.step_same hstep rfl

/-- the file of the commit, staged -/
def filing : Repository := { branched with edits := Table.empty.insert "a" ⟨some "1\n", true⟩ }

theorem filing_cleanRun : CleanRun filing := by
  have hnone : branched.committedContent "a" = none := by
    rw [Repository.committedContent, branched_headTree]
    rfl
  have hwritten := branched_cleanRun.writeLine "a" (show "1" ++ "\n" = "1\n" from rfl) (by simp [hnone])
  have hstaged : step { branched with edits := branched.edits.insert "a" ⟨some "1\n", false⟩ } (.add [] true)
      = .ok (silently filing) := rfl
  exact hwritten.step_same hstaged rfl

/-- the file committed, and HEAD still on its branch -/
def filed : Repository := { drafting with head := .attached "main", edits := .empty }

theorem filed_cleanRun : CleanRun filed := by
  have hmade : Draft.commitIn filing ⟨filing.headId.toList ++ [], "second", defaultAuthor, filing.headTree⟩
      = filingCommit := by
    have hedits : EditsOnly branched filing := .of_edits branched _
    rw [hedits.headId, hedits.headTree, branched_headId, branched_headTree]
    rfl
  obtain ⟨o, ho, hstate⟩ : ∃ o, step filing (.commit { message := some "second" }) = .ok o ∧ o.state = filed := by
    refine ⟨_, rfl, ?_⟩
    show committed filing ⟨filing.headId.toList ++ [], "second", defaultAuthor, filing.headTree⟩ = _
    rw [committed, hmade]
    rfl
  have hnew : filing.commits.get? filingCommit.id = none := by simp [filing, branched, lone, olderCommit_ne_filing]
  have hrun := filing_cleanRun.step ho
    (filing_cleanRun.reachable.wellFormed.distinct_of_insert (c := filingCommit) rfl (by rw [hstate]; rfl) hnew)
  rw [hstate] at hrun
  exact hrun

/-- the branch without the file is checked out, and gets the edit -/
theorem drafting_cleanRun : CleanRun drafting := by
  have hother : filed.currentBranch ≠ some "old" := by simp [Repository.currentBranch, filed]
  have hold : filed.branches.get? "old" = some olderCommit.id := by simp [filed, drafting, branched]
  obtain ⟨o, ho, hback⟩ := step_checkoutBranch hother hold rfl rfl
  have hclean := filed_cleanRun.step_same ho (by rw [hback])
  rw [hback] at hclean
  have hedits : EditsOnly drafting { filed with head := .attached "old" } := .of_edits drafting _
  have hnone : ({ filed with head := .attached "old" } : Repository).committedContent "b" = none := by
    rw [Repository.committedContent_editsOnly hedits, Repository.committedContent, drafting_headTree]
    rfl
  exact hclean.writeLine "b" (show "2" ++ "\n" = "2\n" from rfl) (by simp [hnone])

theorem drafting_wellFormed : WellFormed drafting := drafting_cleanRun.reachable.wellFormed

theorem drafting_isParent {p id : CommitId} : drafting.IsParent p id ↔ p = olderCommit.id ∧ id = filingCommit.id := by
  rw [Repository.isParent_iff, get?_drafting_commits]
  constructor
  · rintro ⟨c, hc, hp⟩
    split at hc
    · rename_i hid
      cases hc
      exact ⟨List.mem_singleton.1 hp, hid.symm⟩
    · split at hc
      · cases hc
        exact absurd hp List.not_mem_nil
      · cases hc
  · rintro ⟨rfl, rfl⟩
    exact ⟨filingCommit, if_pos rfl, List.mem_singleton.2 rfl⟩

/-- the edit is not in the way of the file -/
theorem drafting_free : drafting.overwritten filingCommit.tree = [] := by
  refine overwritten_eq_nil_iff.2 (fun p hp => ?_)
  obtain rfl : p = "b" := by simpa [drafting, Table.mem_keys, Table.get?_insert, eq_comm] using hp
  rw [drafting_headTree, get?_filingCommit_tree]
  rfl

/-- without a fast-forward, merging the file joins the branches -/
theorem drafting_merge (commit : Bool) (message : Option String) :
    ∃ o, step drafting (.merge (.start "main" .never commit message)) = .ok o ∧ o.state =
      if commit then
        (addCommit drafting (mergeCommit drafting "main" olderCommit.id filingCommit.id message filingCommit.tree)).settleEdits
      else pendingMerge drafting filingCommit.tree filingCommit.id := by
  have hacyclic := drafting_wellFormed.acyclic
  have hnewer : drafting.ProperAncestor olderCommit.id filingCommit.id := .single (drafting_isParent.2 ⟨rfl, rfl⟩)
  have henters : drafting.EntersAt olderCommit.id filingCommit.id := fun x _ _ p hp _ => (drafting_isParent.1 hp).1
  have hbase := Repository.mergeBase_eq_of_entersAt hacyclic hnewer henters
  have hmerged : mergeTrees (drafting.treeOf (some olderCommit.id)) (drafting.treeOf (some olderCommit.id))
      (drafting.treeOf (some filingCommit.id)) = .ok filingCommit.tree := by
    rw [drafting_treeOf_filing]
    exact mergeTrees_eq_theirs_iff.2 (fun p => Or.inr rfl)
  obtain ⟨o, ho, hstate⟩ := trueMerge_succeeds hbase hmerged drafting_free "main" commit message
  refine ⟨o, (merge_never_eq hacyclic drafting_headId drafting_resolve hnewer rfl rfl commit message).trans ho, ?_⟩
  rw [hstate, pendingMerge, headTree_of_headId drafting_headId]

theorem drafting_stops :
    ∃ p, apply drafting (.merge (.start "main" .never false none)) = .ok p ∧ p.state.mergeHead = some filingCommit.id := by
  obtain ⟨p, hp, hstate⟩ := drafting_merge false none
  have hstopped : p.state = pendingMerge drafting filingCommit.tree filingCommit.id := hstate
  rw [pendingMerge_eq] at hstopped
  refine ⟨p, apply_of_step drafting_wellFormed hp ?_, by rw [hstopped]⟩
  exact drafting_wellFormed.distinct_of_same (by rw [hstopped])

/-! ## Giving up and concluding -/

section Stopped

variable {r : Repository} {source : String} {ff : FastForward}

/-- **Giving a merge up undoes it.** The repository is in every part what it was before the merge, the edits that were
pending then among them. -/
theorem abort_undoes_merge (hcheck : r.check = .ok ()) {given : Option String} {p : Outcome}
    (hp : apply r (.merge (.start source ff false given)) = .ok p) (hpending : p.state.mergeHead.isSome = true) :
    ∃ o, apply p.state (.merge .abort) = .ok o ∧ o.state = r := by
  have hw := Repository.check_eq_ok.1 hcheck
  obtain ⟨ours, theirs, merged, -, hmerge, hmergeable, hstate, -⟩ := merge_stopped hw (apply_eq_ok.1 hp).1 hpending
  have hback : { p.state.dropStaged with mergeHead := none } = r := by
    rw [hstate]
    exact hmergeable.dropStaged_pendingMerge theirs hmerge
  obtain ⟨o, ho⟩ : ∃ o, abortMerge p.state = .ok o := by
    simp [abortMerge, Option.isSome_iff_ne_none.1 hpending]
  have hundone : o.state = r := (abortMerge_effect ho).2.trans hback
  refine ⟨o, apply_eq_ok.2 ⟨ho, Or.inr ?_⟩, hundone⟩
  rw [hundone]
  exact hcheck

/-- a merge that brings in a file is given up, and the edit of the other file is as it was -/
theorem abort_keeps_draft :
    drafting.check = .ok () ∧ ∃ p o, apply drafting (.merge (.start "main" .never false none)) = .ok p
      ∧ p.state.mergeHead.isSome = true ∧ apply p.state (.merge .abort) = .ok o ∧ o.state = drafting
      ∧ o.state.edits.get? "b" = some ⟨some "2\n", false⟩ := by
  have hcheck := Repository.check_eq_ok.2 drafting_wellFormed
  obtain ⟨p, hp, hpending⟩ := drafting_stops
  have hpending : p.state.mergeHead.isSome = true := Option.isSome_of_eq_some hpending
  obtain ⟨o, ho, hstate⟩ := abort_undoes_merge hcheck hp hpending
  refine ⟨hcheck, p, o, hp, hpending, ho, hstate, ?_⟩
  rw [hstate, drafting, Table.get?_insert, if_pos rfl]

/-- a commit that concludes a merge needs nothing but the message that it is given -/
theorem commit_concludes {q : Repository} (hpending : q.mergeHead.isSome = true) (message : String) (allowEmpty : Bool) :
    ∃ o, commit q { message := some message, allowEmpty := allowEmpty } = .ok o ∧ o.state =
      committed q ⟨q.headId.toList ++ q.mergeHead.toList, message, defaultAuthor, q.headTree⟩ := by
  obtain ⟨theirs, htheirs⟩ := Option.isSome_iff_exists.1 hpending
  obtain ⟨o, ho⟩ : ∃ o, commit q { message := some message, allowEmpty := allowEmpty } = .ok o := by
    simp [commit, freshDraft, commitMessage, htheirs, bind, Except.bind, pure, Except.pure]
  obtain ⟨d, hd, -, hstate⟩ := commit_effect ho
  obtain ⟨-, given, hgiven, rfl⟩ := freshDraft_effect hd
  cases hgiven
  exact ⟨o, ho, hstate⟩

/-- **Concluding a merge is merging at once.** A merge that stops before committing could have been committed at once, with
any message; and a commit with that message leads from where it has stopped to the same repository, in every part. Either
is accepted exactly when the other is, so always while no new commit gets the identifier of another one. -/
theorem concluding_is_merging (hcheck : r.check = .ok ()) {given : Option String} {p : Outcome}
    (hp : apply r (.merge (.start source ff false given)) = .ok p) (hpending : p.state.mergeHead.isSome = true)
    (message : String) (allowEmpty : Bool) :
    ∃ joined concluded, step r (.merge (.start source ff true (some message))) = .ok joined
      ∧ step p.state (.commit { message := some message, allowEmpty := allowEmpty }) = .ok concluded
      ∧ joined.state = concluded.state ∧ joined.state.mergeHead = none
      ∧ (apply r (.merge (.start source ff true (some message))) = .ok joined ↔
          apply p.state (.commit { message := some message, allowEmpty := allowEmpty }) = .ok concluded)
      ∧ (DistinctCommitIds r joined.state →
          apply r (.merge (.start source ff true (some message))) = .ok joined) := by
  have hw := Repository.check_eq_ok.1 hcheck
  obtain ⟨ours, theirs, merged, hours, hmerge, hmergeable, hstate, hmerges⟩ :=
    merge_stopped hw (apply_eq_ok.1 hp).1 hpending
  obtain ⟨joined, hjoined, hjoinedState⟩ := hmerges (some message)
  obtain ⟨concluded, hconcluded, hconcludedState⟩ := commit_concludes hpending message allowEmpty
  have hsame : joined.state = concluded.state := by
    have hhead : p.state.headId = some ours ∧ p.state.mergeHead = some theirs ∧ p.state.headTree = r.headTree := by
      rw [hstate, pendingMerge_eq]
      exact ⟨hours, rfl, rfl⟩
    rw [hjoinedState, hconcludedState, hhead.1, hhead.2.1, hhead.2.2, hstate]
    exact (hmergeable.committed_pendingMerge theirs hmerge source message).symm
  have hmergeStep : step r (.merge (.start source ff true (some message))) = .ok joined := hjoined
  have hcommitStep : step p.state (.commit { message := some message, allowEmpty := allowEmpty }) = .ok concluded :=
    hconcluded
  refine ⟨joined, concluded, hmergeStep, hcommitStep, hsame, ?_, ?_, fun hdistinct => ?_⟩
  · rw [hsame, hconcludedState]
    rfl
  · -- both are checked afterwards, and the check sees the same repository
    rw [apply_eq_ok, apply_eq_ok, hsame]
    simp [hmergeStep, hcommitStep, Operation.isReadOnly]
  · exact apply_of_step hw hmergeStep hdistinct

theorem draftedJoin_id :
    (mergeCommit drafting "main" olderCommit.id filingCommit.id (some "joined") filingCommit.tree).id =
      "23704ac4c1ae13c730703fcdc17d817794aeb9fb70c7d12a1864e39a9b023bd8" := by
  rw [mergeCommit, Commit.make_id, olderCommit_id, filingCommit_id, filingCommit, Commit.make, filedBlob_id]
  decide +kernel

/-- a merge that brings in a file is concluded, and has made the commit of a merge at once -/
theorem conclusion_joins_draft :
    drafting.check = .ok () ∧ ∃ p joined concluded, apply drafting (.merge (.start "main" .never false none)) = .ok p
      ∧ p.state.mergeHead.isSome = true
      ∧ apply drafting (.merge (.start "main" .never true (some "joined"))) = .ok joined
      ∧ apply p.state (.commit { message := some "joined" }) = .ok concluded ∧ joined.state = concluded.state := by
  have hcheck := Repository.check_eq_ok.2 drafting_wellFormed
  obtain ⟨p, hp, hpending⟩ := drafting_stops
  have hpending : p.state.mergeHead.isSome = true := Option.isSome_of_eq_some hpending
  obtain ⟨joined, concluded, hjoined, -, hsame, -, halike, happlies⟩ :=
    concluding_is_merging hcheck hp hpending "joined" false
  have hdistinct : DistinctCommitIds drafting joined.state := by
    obtain ⟨o, ho, hstate⟩ := drafting_merge true (some "joined")
    cases hjoined.symm.trans ho
    refine drafting_wellFormed.distinct_of_insert rfl (by rw [hstate]; exact addCommit_commits _ _) ?_
    rw [get?_drafting_commits, draftedJoin_id, filingCommit_id, olderCommit_id]
    decide
  have hmerged := happlies hdistinct
  exact ⟨hcheck, p, joined, concluded, hp, hpending, hmerged, halike.1 hmerged, hsame⟩

end Stopped

end RepoTutor.Transition
