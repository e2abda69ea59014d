/-
A checkout carries the pending edits along, and can be taken back.

A checkout that succeeds puts HEAD at its `destination` and changes nothing else but the branch that it creates
(`checkout_arrives`). The guard lets an edit through only where both commits hold the same file. So an edit that
differed from the file before differs from it afterwards and none is dropped, and the guard lets the same edits through
on the way back (`Arrives.back`). Results:
- `checkout_carries_edits`: what is kept by a checkout, that the branch HEAD was on can be checked out again, with the
  repository exactly as it was, and which paths a checkout names when it is refused for their edits;
- `draft_is_carried`: an edit that is carried to a branch with other files and back, and one that is in the way.
-/
import RepoTutor.Proofs.Transition.BornHead
import RepoTutor.Proofs.Transition.ProtectedEdits
import RepoTutor.Proofs.Transition.Status

namespace RepoTutor.Transition

open Command Repo

/-- the commit that a checkout goes to -/
def destination (r : Repository) (target : String) : CheckoutMode → Option CommitId
  | .any => (r.branches.get? target).or (r.resolve target)
  | .branchOnly => r.branches.get? target
  | .detach => r.resolve target
  | .create start _ => startPoint r start

def CreatesBranch (mode : CheckoutMode) : Prop := ∃ start force, mode = .create start force

/-- HEAD at the destination of a checkout, where no edit is on a file that differs -/
structure Arrives (r : Repository) (target : String) (mode : CheckoutMode) (r' : Repository) : Prop where
  repoints : Repoints r r'
  edits : r'.edits = r.edits
  branches : ∀ name, r'.branches.get? name ≠ r.branches.get? name → CreatesBranch mode ∧ name = target
  headId : r'.headId = destination r target mode
  free : r.overwritten r'.headTree = []

/-- what is seen after a checkout: everything is as it was but for HEAD and the branch that is created -/
structure CheckedOut (r : Repository) (target : String) (mode : CheckoutMode) (r' : Repository) : Prop where
  commits : r'.commits = r.commits
  blobs : r'.blobs = r.blobs
  clock : r'.clock = r.clock
  mergeHead : r'.mergeHead = r.mergeHead
  edits : r'.edits = r.edits
  branches : ∀ name, r'.branches.get? name ≠ r.branches.get? name → CreatesBranch mode ∧ name = target
  headId : r'.headId = destination r target mode
  fileContent : ∀ p, r'.fileContent p =
    match r.edits.get? p with
    | some e => e.content
    | none => r.contentIn (r.treeOf (destination r target mode)) p

/-! ## Where a checkout goes -/

section Arrivals

variable {r : Repository} {target : String} {mode : CheckoutMode} {o : Outcome}

theorem Reachable.noBranches_of_unborn (hr : Reachable r) (hunborn : r.headId = none) (name : BranchName) :
    r.branches.get? name = none :=
  Table.isEmpty_iff.1 (noBranches_of_noCommits hr.wellFormed (hr.noCommits_of_unborn hunborn)) name

/-- without commits there is nothing that a revision could name -/
theorem Reachable.resolve_of_unborn (hr : Reachable r) (hunborn : r.headId = none) (rev : String) :
    r.resolve rev = none := by
  cases hid : r.resolve rev with
  | none => rfl
  | some id =>
    obtain ⟨c, hc⟩ := Table.contains_eq_true.1 (hr.wellFormed.resolve_stored hid)
    rw [Table.isEmpty_iff.1 (hr.noCommits_of_unborn hunborn) id] at hc
    cases hc

/-- HEAD stays where it is -/
theorem Arrives.refl (h : destination r target mode = r.headId) : Arrives r target mode r where
  repoints := .refl r
  edits := rfl
  branches _ hname := absurd rfl hname
  headId := h.symm
  free := overwritten_eq_nil_iff.2 (fun _ _ => rfl)

/-- a guarded move of HEAD and its branch drops no edit -/
theorem Arrives.guarded (h : Settled r) {head : Head} {branches : Table CommitId} {id : CommitId}
    (hid : ({ r with head := head, branches := branches } : Repository).headId = some id)
    (hdestination : destination r target mode = some id) (hover : r.overwritten (r.treeOf (some id)) = [])
    (hbranches : ∀ name, branches.get? name ≠ r.branches.get? name → CreatesBranch mode ∧ name = target) :
    Arrives r target mode { r with head := head, branches := branches }.settleEdits := by
  have hmoved := Repoints.of_pointers r head branches
  have htree : ({ r with head := head, branches := branches } : Repository).headTree = r.treeOf (some id) := by
    rw [headTree_repoints hmoved, hid]
  have hfree : r.overwritten ({ r with head := head, branches := branches } : Repository).headTree = [] := by
    rw [htree]
    exact hover
  have hkept : Settled ({ r with head := head, branches := branches } : Repository) := h.of_overwritten rfl rfl hfree
  rw [hkept.settleEdits_eq]
  exact ⟨hmoved, rfl, hbranches, hid.trans hdestination.symm, hfree⟩

theorem checkoutDetached_arrives (h : Settled r) (ho : checkoutDetached r target = .ok o)
    (hdestination : destination r target mode = r.resolve target) : Arrives r target mode o.state := by
  obtain ⟨id, hid, hover, hstate⟩ := checkoutDetached_effect ho
  rw [hstate]
  exact .guarded h rfl (hdestination.trans hid) hover (fun name hname => absurd rfl hname)

theorem checkoutNamed_arrives (h : Settled r) {branchOnly : Bool} (ho : checkoutNamed r target branchOnly = .ok o)
    (hbranch : ∀ id, r.branches.get? target = some id → destination r target mode = some id)
    (hother : branchOnly = false → r.branches.get? target = none → destination r target mode = r.resolve target)
    (hunborn : r.headId = none → destination r target mode = none) : Arrives r target mode o.state := by
  rcases checkoutNamed_effect ho with ⟨hcurrent, hstate⟩ | ⟨id, hid, hover, hstate⟩ | ⟨hany, hnone, ho⟩
  · rw [hstate]
    refine .refl ?_
    cases hhead : r.headId with
    | none => exact hunborn hhead
    | some id => exact hbranch id ((headId_of_currentBranch hcurrent).symm.trans hhead)
  · rw [hstate]
    exact .guarded h hid (hbranch id hid) hover (fun name hname => absurd rfl hname)
  · exact checkoutDetached_arrives h ho (hother hany hnone)

/-- a checkout that succeeds has put HEAD at its destination, and has dropped no edit on the way -/
theorem checkout_arrives (hr : Reachable r) (ho : checkout r target mode = .ok o) : Arrives r target mode o.state := by
  have hsettled := hr.settled
  rcases (checkout_effect ho).2 with ⟨start, force, rfl, hnew⟩ | ⟨rfl, hdetach⟩ | ⟨rfl, hnamed⟩ | ⟨rfl, hnamed⟩
  · rcases (checkoutNew_effect hnew).2 with ⟨id, hid, hover, hstate⟩ | ⟨rfl, hunborn, hstate⟩
    · rw [hstate]
      refine .guarded hsettled ((Table.get?_insert ..).trans (if_pos rfl)) hid hover (fun name hname => ?_)
      refine ⟨⟨start, force, rfl⟩, ?_⟩
      by_contra hne
      exact hname ((Table.get?_insert ..).trans (if_neg (Ne.symm hne)))
    · -- there are no branches, so HEAD is as unborn on one as on the other
      have hnone : ({ r with head := .attached target } : Repository).headId = none :=
        hr.noBranches_of_unborn hunborn target
      have htree : ({ r with head := .attached target } : Repository).headTree = r.headTree := by
        rw [headTree_of_unborn hnone, headTree_of_unborn hunborn]
      rw [hstate]
      exact ⟨.of_pointers r _ _, rfl, fun name hname => absurd rfl hname, hnone.trans hunborn.symm,
        overwritten_eq_nil_iff.2 (fun p _ => by rw [htree])⟩
  · exact checkoutDetached_arrives hsettled hdetach rfl
  · refine checkoutNamed_arrives hsettled hnamed (fun id hid => hid) (fun h => by cases h) (fun hunborn => ?_)
    exact hr.noBranches_of_unborn hunborn target
  · refine checkoutNamed_arrives hsettled hnamed (fun id hid => ?_) (fun _ hnone => ?_) (fun hunborn => ?_)
    · simp [destination, hid]
    · simp [destination, hnone]
    · simp [destination, hr.noBranches_of_unborn hunborn, hr.resolve_of_unborn hunborn]

theorem Arrives.checkedOut {r' : Repository} (h : Arrives r target mode r') : CheckedOut r target mode r' where
  commits := h.repoints.commits
  blobs := h.repoints.blobs
  clock := h.repoints.clock
  mergeHead := h.repoints.mergeHead
  edits := h.edits
  branches := h.branches
  headId := h.headId
  fileContent p := by
    have hcommitted : r'.committedContent p = r.contentIn (r.treeOf (destination r target mode)) p := by
      rw [Repository.committedContent, headTree_repoints h.repoints, h.headId,
        Repository.contentIn_congr h.repoints.blobs]
    have hsame : r'.edits.get? p = r.edits.get? p := by rw [h.edits]
    cases hedit : r.edits.get? p with
    | some e => exact Repository.fileContent_of_edit (hsame.trans hedit)
    | none => exact (Repository.fileContent_of_noEdit (hsame.trans hedit)).trans hcommitted

/-- where no branch has been created, only HEAD has moved -/
theorem Arrives.head_only {r' : Repository} (h : Arrives r target mode r') (hmode : ¬CreatesBranch mode) :
    r' = { r with head := r'.head } := by
  have hbranches : r'.branches = r.branches := by
    refine Table.ext_get? (fun name => ?_)
    by_contra hname
    exact hmode (h.branches name hname).1
  have hrepoints := h.repoints
  unfold Repoints at hrepoints
  rw [hbranches, h.edits] at hrepoints
  exact hrepoints

/-- the branch that HEAD was on can be checked out again, and nothing has changed then -/
theorem Arrives.back {r' : Repository} (hsettled : Settled r) (h : Arrives r target mode r')
    (hmode : ¬CreatesBranch mode) (hmerge : r.mergeHead = none) {branch : BranchName}
    (hhead : r.head = .attached branch) (hborn : r.branches.contains branch = true) :
    ∃ back, checkout r' branch .any = .ok back ∧ back.state = r := by
  have hmoved := h.head_only hmode
  have hmerge' : r'.mergeHead = none := h.repoints.mergeHead.trans hmerge
  by_cases hcurrent : r'.currentBranch = some branch
  · have hstays : r' = r := by
      rw [hmoved, currentBranch_eq_some.1 hcurrent, ← hhead]
    refine ⟨say r' ["Already on '" ++ branch ++ "'"], ?_, hstays⟩
    simp [checkout, hmerge', checkoutNamed, hcurrent, pure, Except.pure]
  · obtain ⟨id, hid⟩ := Table.contains_eq_true.1 hborn
    have hbranch : r'.branches.get? branch = some id := by
      rw [hmoved]
      exact hid
    have htree : r'.treeOf (some id) = r.headTree := by
      have hold : r.headId = some id := (headId_of_currentBranch (currentBranch_eq_some.2 hhead)).trans hid
      rw [treeOf_congr h.repoints.commits, headTree_of_headId hold]
    -- the guard compares the same two files under each edit, the other way round
    have hover : r'.overwritten (r'.treeOf (some id)) = [] := by
      rw [htree]
      refine overwritten_eq_nil_iff.2 (fun p hp => ?_)
      rw [h.edits] at hp
      exact (overwritten_eq_nil_iff.1 h.free p hp).symm
    obtain ⟨back, hback, hstate⟩ := checkout_branch hmerge' hcurrent hbranch hover
    have hattached : ({ r' with head := .attached branch } : Repository) = r := by
      rw [hmoved, ← hhead]
    refine ⟨back, hback, ?_⟩
    rw [hstate, hattached, hsettled.settleEdits_eq]

end Arrivals

/-! ## When a checkout is refused for an edit -/

section Refusals

variable {r : Repository} {target : String} {paths : List Path}

theorem switchHead_overwrites {head : Head} {id : CommitId} {e : TransitionError}
    (h : switchHead r head id = .error e) : r.checkOverwrite (r.treeOf (some id)) = .error e :=
  Except.bind_ok_eq_error.1 h

theorem checkoutDetached_overwrites (h : checkoutDetached r target = .error (.localChangesWouldBeOverwritten paths)) :
    ∃ id, r.resolve target = some id
      ∧ r.checkOverwrite (r.treeOf (some id)) = .error (.localChangesWouldBeOverwritten paths) := by
  rcases Except.bind_eq_error.1 h with h | ⟨id, hid, h⟩
  · cases (resolveRef_eq_error.1 h).2
  · exact ⟨id, resolveRef_eq_ok.1 hid, switchHead_overwrites (Except.bind_ok_eq_error.1 h)⟩

theorem checkoutNamed_overwrites {branchOnly : Bool}
    (h : checkoutNamed r target branchOnly = .error (.localChangesWouldBeOverwritten paths)) :
    ∃ id, (r.branches.get? target = some id
        ∨ branchOnly = false ∧ r.branches.get? target = none ∧ r.resolve target = some id)
      ∧ r.checkOverwrite (r.treeOf (some id)) = .error (.localChangesWouldBeOverwritten paths) := by
  unfold checkoutNamed at h
  split at h
  · cases h
  · split at h
    · rename_i id hid
      exact ⟨id, Or.inl hid, switchHead_overwrites (Except.bind_ok_eq_error.1 h)⟩
    · rename_i hnone
      cases branchOnly with
      | true =>
        simp only [if_true] at h
        split at h <;> cases h
      | false =>
        obtain ⟨id, hid, hover⟩ := checkoutDetached_overwrites h
        exact ⟨id, Or.inr ⟨rfl, hnone, hid⟩, hover⟩

theorem checkoutNew_overwrites {start : Option String} {force : Bool}
    (h : checkoutNew r target start force = .error (.localChangesWouldBeOverwritten paths)) :
    ∃ id, startPoint r start = some id
      ∧ r.checkOverwrite (r.treeOf (some id)) = .error (.localChangesWouldBeOverwritten paths) := by
  unfold checkoutNew at h
  dsimp only at h
  split at h
  · cases h
  cases start with
  | some rev =>
    rcases Except.bind_eq_error.1 h with h | ⟨found, hfound, h⟩
    · cases (resolveRef_eq_error.1 (Except.map_eq_error.1 h)).2
    · obtain ⟨id, hid, rfl⟩ := Except.map_eq_ok.1 hfound
      exact ⟨id, resolveRef_eq_ok.1 hid, Except.bind_ok_eq_error.1 h⟩
  | none =>
    rcases Except.bind_eq_error.1 h with h | ⟨found, hfound, h⟩
    · cases h
    · cases hfound
      cases hhead : r.headId with
      | some id =>
        rw [hhead] at h
        exact ⟨id, hhead, Except.bind_ok_eq_error.1 h⟩
      | none =>
        rw [hhead] at h
        cases h

/-- a checkout is refused for edits by the guard at its destination -/
theorem checkout_overwrites {mode : CheckoutMode}
    (h : checkout r target mode = .error (.localChangesWouldBeOverwritten paths)) :
    ∃ id, destination r target mode = some id
      ∧ r.checkOverwrite (r.treeOf (some id)) = .error (.localChangesWouldBeOverwritten paths) := by
  unfold checkout at h
  split at h
  · cases h
  · cases mode with
    | create start force => exact checkoutNew_overwrites h
    | detach => exact checkoutDetached_overwrites h
    | branchOnly =>
      obtain ⟨id, hid | ⟨hany, -, -⟩, hover⟩ := checkoutNamed_overwrites h
      · exact ⟨id, hid, hover⟩
      · cases hany
    | any =>
      obtain ⟨id, hid | ⟨-, hnone, hid⟩, hover⟩ := checkoutNamed_overwrites h
      · exact ⟨id, by simp [destination, hid], hover⟩
      · exact ⟨id, by simp [destination, hnone, hid], hover⟩

end Refusals

/-- **A checkout carries the edits along and can be taken back.** It puts HEAD at its destination and keeps commits,
contents, clock, pending merge and every edit with its flag; no branch changes but the one that is created. A path is
seen with its edit, or else as the destination has it. If no branch is created, checking out the branch that HEAD was on
succeeds and leaves exactly the repository from before. A checkout that is refused for edits names, in ascending order,
the paths with an edit that HEAD and the destination hold differently, and there are some. -/
theorem checkout_carries_edits {r : Repository} (hr : Reachable r) (target : String) (mode : CheckoutMode) :
    (∀ o, apply r (.checkout target mode) = .ok o → CheckedOut r target mode o.state
        ∧ ∀ branch, ¬CreatesBranch mode → r.head = .attached branch → r.branches.contains branch = true →
            ∃ back, apply o.state (.checkout branch .any) = .ok back ∧ back.state = r)
      ∧ ∀ paths, apply r (.checkout target mode) = .error (.localChangesWouldBeOverwritten paths) →
          paths ≠ [] ∧ paths.Pairwise (· < ·) ∧ ∃ id, destination r target mode = some id
            ∧ ∀ p, p ∈ paths ↔ r.edits.contains p = true ∧ r.headTree.get? p ≠ (r.treeOf (some id)).get? p := by
  refine ⟨fun o ho => ?_, fun paths h => ?_⟩
  · have hstep : checkout r target mode = .ok o := (apply_eq_ok.1 ho).1
    have harrives := checkout_arrives hr hstep
    refine ⟨harrives.checkedOut, fun branch hmode hhead hborn => ?_⟩
    obtain ⟨back, hback, hstate⟩ := harrives.back hr.settled hmode (checkout_effect hstep).1 hhead hborn
    refine ⟨back, apply_eq_ok.2 ⟨hback, Or.inr ?_⟩, hstate⟩
    rw [hstate]
    exact Repository.check_eq_ok.2 hr.wellFormed
  · have hstep : checkout r target mode = .error (.localChangesWouldBeOverwritten paths) := (apply_eq_error rfl).1 h
    obtain ⟨id, hid, hover⟩ := checkout_overwrites hstep
    obtain ⟨hsome, hpaths⟩ := checkOverwrite_eq_error.1 hover
    obtain rfl : paths = r.overwritten (r.treeOf (some id)) := by cases hpaths; rfl
    exact ⟨hsome, (ascending_keys r).sublist List.filter_sublist, id, hid, fun p => mem_overwritten⟩

/-- an edit of the file that only the other branch has as well -/
def crowded : Repository := { drafting with edits := drafting.edits.insert "a" ⟨some "3\n", false⟩ }

theorem crowded_editsOnly : EditsOnly drafting crowded := .of_edits drafting _

theorem crowded_treeOf_filing : crowded.treeOf (some filingCommit.id) = filingCommit.tree := by
  rw [treeOf_congr crowded_editsOnly.commits, drafting_treeOf_filing]

theorem crowded_reachable : Reachable crowded := by
  have hnone : drafting.committedContent "a" = none := by
    rw [Repository.committedContent, drafting_headTree]
    rfl
  exact (drafting_cleanRun.writeLine "a" (show "3" ++ "\n" = "3\n" from rfl) (by simp [hnone])).reachable

theorem crowded_edited {p : Path} :
    crowded.edits.contains p = true ∧ crowded.headTree.get? p ≠ filingCommit.tree.get? p ↔ p = "a" := by
  rw [crowded_editsOnly.headTree, drafting_headTree, Table.get?_empty, get?_filingCommit_tree, crowded, Table.contains_insert]
  by_cases hp : "a" = p
  · simp [hp]
  · simp [hp, Ne.symm hp]

theorem crowded_refuses :
    ∃ paths, apply crowded (.checkout "main" .any) = .error (.localChangesWouldBeOverwritten paths) := by
  have hmain : crowded.branches.get? "main" = some filingCommit.id := by simp [crowded, drafting]
  have hother : crowded.currentBranch ≠ some "main" := by simp [Repository.currentBranch, crowded, drafting]
  have hfound : crowded.overwritten filingCommit.tree ≠ [] := by
    have hmem : "a" ∈ crowded.overwritten filingCommit.tree := mem_overwritten.2 (crowded_edited.2 rfl)
    exact List.ne_nil_of_mem hmem
  rw [← crowded_treeOf_filing] at hfound
  have hrefused := checkout_branch_refused rfl hother hmain (checkOverwrite_eq_error.2 ⟨hfound, rfl⟩)
  exact ⟨_, (apply_eq_error rfl).2 hrefused⟩

/-- the edit of one file is carried to the other branch and back, the edit of the other file is in the way -/
theorem draft_is_carried :
    Reachable drafting ∧ Reachable crowded
      ∧ (∃ o back, apply drafting (.checkout "main" .any) = .ok o ∧ o.state.fileContent "a" = some "1\n"
        ∧ o.state.fileContent "b" = some "2\n" ∧ apply o.state (.checkout "old" .any) = .ok back
        ∧ back.state = drafting)
      ∧ ∃ paths, apply crowded (.checkout "main" .any) = .error (.localChangesWouldBeOverwritten paths)
        ∧ ∀ p, p ∈ paths ↔ p = "a" := by
  have hreachable := drafting_cleanRun.reachable
  have hmain : drafting.branches.get? "main" = some filingCommit.id := by simp [drafting]
  refine ⟨hreachable, crowded_reachable, ?_, ?_⟩
  · have hother : drafting.currentBranch ≠ some "main" := by simp [Repository.currentBranch, drafting]
    have hover : drafting.overwritten (drafting.treeOf (some filingCommit.id)) = [] := by
      rw [drafting_treeOf_filing]
      exact drafting_free
    obtain ⟨o, ho, hstate⟩ := checkout_branch rfl hother hmain hover
    have hstep : step drafting (.checkout "main" .any) = .ok o := ho
    have happly := apply_of_same drafting_wellFormed hstep (by rw [hstate]; rfl)
    obtain ⟨hcarried, hback⟩ := (checkout_carries_edits hreachable "main" .any).1 o happly
    have hdestination : destination drafting "main" .any = some filingCommit.id := by simp [destination, hmain]
    obtain ⟨back, hreturns, hsame⟩ := hback "old" (by simp [CreatesBranch]) rfl rfl
    refine ⟨o, back, happly, ?_, ?_, hreturns, hsame⟩
    · rw [hcarried.fileContent, hdestination, drafting_treeOf_filing]
      simp [drafting, Repository.contentIn, get?_filingCommit_tree]
    · rw [hcarried.fileContent]
      simp [drafting]
  · obtain ⟨paths, hrefused⟩ := crowded_refuses
    obtain ⟨-, -, id, hid, hpaths⟩ := (checkout_carries_edits crowded_reachable "main" .any).2 paths hrefused
    have hdestination : destination crowded "main" .any = some filingCommit.id := by
      simp [destination, crowded, drafting]
    obtain rfl : filingCommit.id = id := Option.some.inj (hdestination.symm.trans hid)
    refine ⟨paths, hrefused, fun p => ?_⟩
    rw [hpaths, crowded_treeOf_filing, crowded_edited]

end RepoTutor.Transition
