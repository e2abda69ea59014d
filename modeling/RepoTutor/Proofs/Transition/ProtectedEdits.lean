/-
Pending edits when HEAD goes to another commit.

An edit is kept relative to the file that HEAD holds at its path. Checkouts and merges look at the pending edits before
they put HEAD at another commit, and refuse to go where such a file differs. Three operations do not look, because HEAD is
unborn and they give it a commit on the way (`adopted`): the branch that HEAD follows is created, or another branch is
renamed to it, or HEAD is moved by force to a new branch that exists. `keepsEdited_iff` says that these are all cases in
which the file under an edit changes. Operations never lead to a repository with an unborn HEAD and another branch, so
edits are safe in all that are reached from an empty one; one that is loaded can be in that state.
-/
import RepoTutor.Proofs.Transition.History
import RepoTutor.Proofs.Transition.PendingMerge

namespace RepoTutor.Transition

open Command Repo

/-- operations on branches, checkouts and merges -/
def redirectsHead : Operation → Bool
  | .branch _ => true
  | .checkout _ _ => true
  | .merge _ => true
  | _ => false

/-- the commit that an unborn HEAD is given without a look at the pending edits -/
def adopted (r : Repository) (op : Operation) : Option CommitId :=
  if r.headId.isSome then none
  else
    match op with
    | .branch (.create name start) => if r.currentBranch = some name then startPoint r start else none
    | .branch (.rename (some source) target) => if r.currentBranch = some target then r.branches.get? source else none
    | .checkout target (.create none _) => r.branches.get? target
    | _ => none

/-- HEAD holds the same file as before wherever an edit was pending -/
def KeepsEdited (r r' : Repository) : Prop :=
  ∀ path, r.edits.contains path = true → r'.headTree.get? path = r.headTree.get? path

/-! ## Trees -/

section Trees

variable {r r' : Repository}

theorem headTree_repoints (h : Repoints r r') : r'.headTree = r.treeOf r'.headId := treeOf_congr h.commits r'.headId

theorem headTree_of_unborn (h : r.headId = none) : r.headTree = .empty := by
  rw [Repository.headTree, h]
  rfl

theorem KeepsEdited.of_headTree (h : r'.headTree = r.headTree) : KeepsEdited r r' := fun path _ => by rw [h]

/-- a guarded move keeps the files under the edits -/
theorem KeepsEdited.of_overwritten {tree : Tree} (hover : r.overwritten tree = []) (h : r'.headTree = tree) :
    KeepsEdited r r' := by
  intro path hpath
  rw [h]
  exact (overwritten_eq_nil_iff.1 hover path (Table.contains_iff_mem_keys.1 hpath)).symm

end Trees

/-! ## Operations -/

section Operations

variable {r : Repository} {o : Outcome}

theorem adopted_of_born (h : r.headId.isSome = true) (op : Operation) : adopted r op = none := if_pos h

theorem unborn_of_adopted {op : Operation} {id : CommitId} (h : adopted r op = some id) : r.headId = none := by
  rw [← Option.not_isSome_iff_eq_none]
  intro hborn
  rw [adopted_of_born hborn] at h
  cases h

/-- where HEAD is unborn, it gets the commit of another branch that is renamed to its own -/
theorem renameBranch_unborn (hhead : r.headId = none) {source target : BranchName}
    (ho : renameBranch r source target = .ok o) :
    o.state.headId = if r.currentBranch = some target then r.branches.get? source else none := by
  obtain ⟨current, hattached, hnone⟩ := attached_of_unborn hhead
  have hcurrent : r.currentBranch = some current := currentBranch_eq_some.2 hattached
  rcases renameBranch_effect ho with ⟨rfl, hstate⟩ | ⟨hne, hnew, ⟨id, hid, hstate⟩ | ⟨hmissing, hsource, hstate⟩⟩
  · rw [hstate, hhead]
    split
    · rename_i hsource
      rw [← headId_of_currentBranch hsource, hhead]
    · rfl
  · have hother : current ≠ source := by
      rintro rfl
      rw [hnone] at hid
      cases hid
    rw [hstate]
    by_cases htarget : current = target
    · simp [Repository.headId, hattached, hcurrent, htarget, hid]
    · simp [Repository.headId, hattached, hcurrent, hother, htarget, Ne.symm htarget, hnone]
  · rw [hstate, hmissing]
    simpa [Repository.headId, Table.contains] using hnew

/-- a branch operation gives an unborn HEAD the adopted commit, and leaves HEAD alone otherwise -/
theorem branch_adopts {op : BranchOp} (ho : branch r op = .ok o) :
    o.state.headId = (adopted r (.branch op)).or r.headId := by
  cases hhead : r.headId with
  | some head =>
    rw [branch_headId ho hhead, adopted_of_born (by rw [hhead]; rfl)]
    rfl
  | none =>
    obtain ⟨current, hattached, hnone⟩ := attached_of_unborn hhead
    have hcurrent : r.currentBranch = some current := currentBranch_eq_some.2 hattached
    rw [Option.or_none]
    rcases branch_effect ho with
      ⟨rfl, hstate⟩ | ⟨name, start, rfl, ho⟩ | ⟨name, force, rfl, ho⟩ | ⟨given, source, target, rfl, hsource, ho⟩
    · rw [hstate, hhead]
      simp [adopted]
    · obtain ⟨id, hid, -, hstate⟩ := createBranch_effect ho
      rw [hstate]
      by_cases hname : name = current
      · simp [adopted, Repository.headId, hattached, hnone, hcurrent, hname, hid]
      · simp [adopted, Repository.headId, hattached, hnone, hcurrent, hname, Ne.symm hname]
    · obtain ⟨id, -, -, -, hstate⟩ := deleteBranch_effect ho
      rw [hstate]
      simp [adopted, Repository.headId, hattached, hnone]
    · rw [renameBranch_unborn hhead ho]
      cases given with
      | some given =>
        obtain rfl : given = source := Option.some.inj hsource
        simp [adopted, hhead]
      | none =>
        -- the branch that HEAD follows is renamed, and does not exist
        obtain rfl : current = source := Option.some.inj (hcurrent.symm.trans hsource)
        simp [adopted, hnone]

theorem checkoutDetached_keepsEdited {rev : String} (ho : checkoutDetached r rev = .ok o) : KeepsEdited r o.state := by
  obtain ⟨id, -, hover, hstate⟩ := checkoutDetached_effect ho
  rw [hstate]
  exact .of_overwritten hover (headTree_repoints (Repoints.of_pointers r (.detached id) r.branches).settleEdits)

theorem checkoutNamed_keepsEdited {target : String} {branchOnly : Bool}
    (ho : checkoutNamed r target branchOnly = .ok o) : KeepsEdited r o.state := by
  rcases checkoutNamed_effect ho with ⟨-, hstate⟩ | ⟨id, hid, hover, hstate⟩ | ⟨-, -, ho⟩
  · rw [hstate]
    exact .of_headTree rfl
  · have hmoved := Repoints.of_pointers r (.attached target) r.branches
    rw [hstate]
    refine .of_overwritten hover ((headTree_repoints hmoved.settleEdits).trans ?_)
    exact congrArg r.treeOf hid
  · exact checkoutDetached_keepsEdited ho

/-- a checkout keeps the files under the edits, unless an unborn HEAD adopts a commit -/
theorem checkout_redirects {target : String} {mode : CheckoutMode} (ho : checkout r target mode = .ok o) :
    (adopted r (.checkout target mode) = none ∧ KeepsEdited r o.state) ∨
      ∃ id, adopted r (.checkout target mode) = some id ∧ o.state.headId = some id := by
  rcases (checkout_effect ho).2 with ⟨start, force, rfl, hnew⟩ | ⟨rfl, hdetach⟩ | ⟨rfl, hnamed⟩ | ⟨rfl, hnamed⟩
  · rcases (checkoutNew_effect hnew).2 with ⟨id, hid, hover, hstate⟩ | ⟨rfl, hunborn, hstate⟩
    · refine Or.inl ⟨?_, ?_⟩
      · cases start with
        | some rev => simp [adopted]
        | none =>
          have hhead : r.headId = some id := hid
          simp [adopted, hhead]
      · have hmoved := Repoints.of_pointers r (.attached target) (r.branches.insert target id)
        rw [hstate]
        refine .of_overwritten hover ((headTree_repoints hmoved.settleEdits).trans (congrArg r.treeOf ?_))
        exact (Table.get?_insert ..).trans (if_pos rfl)
    · have hadopted : adopted r (.checkout target (.create none force)) = r.branches.get? target := by
        simp [adopted, hunborn]
      have hhead : o.state.headId = r.branches.get? target := by rw [hstate]; rfl
      rw [hadopted]
      cases hid : r.branches.get? target with
      | some id => exact Or.inr ⟨id, rfl, hhead.trans hid⟩
      | none =>
        refine Or.inl ⟨rfl, .of_headTree ?_⟩
        rw [headTree_of_unborn hunborn, headTree_of_unborn (hhead.trans hid)]
  · exact Or.inl ⟨by simp [adopted], checkoutDetached_keepsEdited hdetach⟩
  · exact Or.inl ⟨by simp [adopted], checkoutNamed_keepsEdited hnamed⟩
  · exact Or.inl ⟨by simp [adopted], checkoutNamed_keepsEdited hnamed⟩

theorem trueMerge_keepsEdited {source : String} {ours theirs : CommitId} {commit : Bool} {message : Option String}
    (ho : trueMerge r source ours theirs commit message = .ok o) : KeepsEdited r o.state := by
  obtain ⟨base, merged, -, -, hover, ⟨-, hstate⟩ | ⟨-, hstate⟩⟩ := trueMerge_effect ho
  · rw [hstate]
    exact .of_overwritten hover (headTree_addCommit r (mergeCommit r source ours theirs message merged))
  · rw [hstate]
    exact .of_headTree (editsOnly_stagePaths merged (changedPaths (r.treeOf (some ours)) merged) r).headTree

theorem merge_keepsEdited {source : String} {ff : FastForward} {commit : Bool} {message : Option String}
    (ho : merge r source ff commit message = .ok o) : KeepsEdited r o.state := by
  obtain ⟨-, -, theirs, -, hcases⟩ := merge_effect ho
  have hmoved : r.overwritten (r.treeOf (some theirs)) = [] → KeepsEdited r (r.moveHead theirs).settleEdits :=
    fun hover => .of_overwritten hover (headTree_moveHead r theirs)
  rcases hcases with ⟨-, hover, hstate⟩ | ⟨ours, -, ⟨-, hstate⟩ | ⟨-, -, -, hover, hstate⟩ | ⟨-, -, -, ho⟩⟩
  · rw [hstate]
    exact hmoved hover
  · rw [hstate]
    exact .of_headTree rfl
  · rw [hstate]
    exact hmoved hover
  · exact trueMerge_keepsEdited ho

/-- an operation keeps the files under the edits, unless an unborn HEAD adopts a commit -/
theorem step_redirects {op : Operation} (hop : redirectsHead op = true) (hstep : step r op = .ok o) :
    (adopted r op = none ∧ KeepsEdited r o.state) ∨
      ∃ id, adopted r op = some id ∧ o.state.headTree = r.treeOf (some id) := by
  cases op with
  | branch op =>
    have hhead := branch_adopts hstep
    have htree := headTree_repoints (branch_repoints hstep)
    cases hadopted : adopted r (.branch op) with
    | none =>
      rw [hadopted, Option.none_or] at hhead
      exact Or.inl ⟨rfl, .of_headTree (by rw [htree, hhead, Repository.headTree])⟩
    | some id =>
      rw [hadopted, Option.some_or] at hhead
      exact Or.inr ⟨id, rfl, by rw [htree, hhead]⟩
  | checkout target mode =>
    refine (checkout_redirects hstep).imp_right ?_
    rintro ⟨id, hadopted, hhead⟩
    exact ⟨id, hadopted, by rw [headTree_repoints (checkout_repoints hstep), hhead]⟩
  | merge op =>
    refine Or.inl ⟨by simp [adopted], ?_⟩
    cases op with
    | start source ff commit message => exact merge_keepsEdited hstep
    | abort =>
      obtain ⟨-, hstate⟩ := abortMerge_effect hstep
      rw [hstate]
      exact .of_headTree rfl
  | _ => cases hop

/-- an operation keeps the files under the edits, up to those of a commit that an unborn HEAD adopts -/
theorem step_keepsEdited {op : Operation} (hop : redirectsHead op = true) (hstep : step r op = .ok o) :
    KeepsEdited r o.state ↔
      ∀ id, adopted r op = some id → ∀ path, r.edits.contains path = true → (r.treeOf (some id)).get? path = none := by
  rcases step_redirects hop hstep with ⟨hadopted, hkept⟩ | ⟨id, hadopted, htree⟩
  · refine iff_of_true hkept ?_
    simp [hadopted]
  · have hbefore : r.headTree = .empty := headTree_of_unborn (unborn_of_adopted hadopted)
    rw [KeepsEdited, htree, hbefore, hadopted]
    simp

/-- **Checkouts, merges and branch operations keep the files under the edits**, up to those of a commit that an unborn HEAD
adopts: never where HEAD stands for a commit, and never along a run. -/
theorem keepsEdited_iff {op : Operation} (hop : redirectsHead op = true) (ho : apply r op = .ok o) :
    (KeepsEdited r o.state ↔
        ∀ id, adopted r op = some id → ∀ path, r.edits.contains path = true → (r.treeOf (some id)).get? path = none)
      ∧ (r.headId.isSome = true → KeepsEdited r o.state) ∧ (Reachable r → KeepsEdited r o.state) := by
  have hiff := step_keepsEdited hop (apply_eq_ok.1 ho).1
  refine ⟨hiff, fun hborn => hiff.2 ?_, fun hr => hiff.2 ?_⟩
  · intro id hadopted
    rw [adopted_of_born hborn] at hadopted
    cases hadopted
  · intro id hadopted path _
    have hcommits := hr.noCommits_of_unborn (unborn_of_adopted hadopted)
    rw [Repository.treeOf, Option.bind_some, Table.isEmpty_iff.1 hcommits id]
    rfl

/-- HEAD on a branch that does not exist, and an edit of a file that another branch has -/
def stranded : Repository :=
  { drafting with head := .attached "new", edits := Table.empty.insert "a" ⟨some "2\n", false⟩ }

theorem stranded_wellFormed : WellFormed stranded := (drafting_wellFormed.attach "new").editsOnly (.of_edits _ _)

theorem stranded_unborn : stranded.headId = none := by simp [Repository.headId, stranded, drafting, branched, lone]

/-- an unborn HEAD that is moved by force has another file under the edit afterwards -/
theorem stranded_changes_edited :
    stranded.check = .ok () ∧ stranded.headId = none
      ∧ ∃ o, apply stranded (.checkout "main" (.create none true)) = .ok o ∧ ¬KeepsEdited stranded o.state := by
  have hmain : stranded.branches.get? "main" = some filingCommit.id := by simp [stranded, drafting]
  have hstep : step stranded (.checkout "main" (.create none true)) =
      .ok (say { stranded with head := .attached "main" } ["Switched to a new branch 'main'"]) := by
    have hmerge : stranded.mergeHead = none := rfl
    have hknown : stranded.branches.contains "main" = true := Table.contains_eq_true.2 ⟨_, hmain⟩
    rw [step, checkout, hmerge]
    simp only [checkoutNew, hknown, stranded_unborn]
    rfl
  have happly := apply_of_step stranded_wellFormed hstep (stranded_wellFormed.distinct_of_same rfl)
  refine ⟨Repository.check_eq_ok.2 stranded_wellFormed, stranded_unborn, _, happly, ?_⟩
  rw [(keepsEdited_iff rfl happly).1]
  intro hkept
  have hadopted : adopted stranded (.checkout "main" (.create none true)) = some filingCommit.id := by
    simp [adopted, stranded_unborn, hmain]
  have hedited : stranded.edits.contains "a" = true := (Table.contains_insert _ _ _ _).2 (Or.inl rfl)
  have hfile := hkept _ hadopted "a" hedited
  rw [treeOf_congr (show stranded.commits = drafting.commits from rfl), drafting_treeOf_filing, get?_filingCommit_tree, if_pos rfl] at hfile
  cases hfile

end Operations

end RepoTutor.Transition
