/-
Operations that move HEAD and branches only.

Branch operations and checkouts change HEAD, the branches and the edits and nothing else (`Repoints`); so does every move
of HEAD by itself. A branch operation leaves HEAD at the commit where it was (`branch_headId`), since the branch that HEAD
follows cannot be deleted, and is followed when it is renamed.
-/
import RepoTutor.Proofs.Transition.Effects

namespace RepoTutor.Transition

open Command Repo

/-- nothing but HEAD, branches and edits differs -/
def Repoints (r r' : Repository) : Prop := r' = { r with head := r'.head, branches := r'.branches, edits := r'.edits }

namespace Repoints

theorem refl (r : Repository) : Repoints r r := rfl

theorem trans {r r' r'' : Repository} (h : Repoints r r') (h' : Repoints r' r'') : Repoints r r'' := by
  unfold Repoints at *
  rw [h'.trans (by rw [h])]

theorem editsOnly {r r' : Repository} (h : EditsOnly r r') : Repoints r r' := by
  unfold Repoints EditsOnly at *
  rw [h]

theorem of_pointers (r : Repository) (head : Head) (branches : Table CommitId) :
    Repoints r { r with head := head, branches := branches } :=
  rfl

theorem moveHead (r : Repository) (id : CommitId) : Repoints r (r.moveHead id) := by
  unfold Repository.moveHead
  split <;> rfl

theorem settleEdits {r r' : Repository} (h : Repoints r r') : Repoints r r'.settleEdits :=
  h.trans (.editsOnly (editsOnly_settleEdits r'))

variable {r r' : Repository} (h : Repoints r r')

include h

theorem commits : r'.commits = r.commits := by rw [h]

theorem blobs : r'.blobs = r.blobs := by rw [h]

theorem mergeHead : r'.mergeHead = r.mergeHead := by rw [h]

theorem clock : r'.clock = r.clock := by rw [h]

end Repoints

/-! ## Setup and branches -/

theorem init_repoints (r : Repository) (initialBranch : Option BranchName) :
    Repoints r (init r initialBranch).state := by
  rcases init_effect r initialBranch with hstate | ⟨name, -, -, -, hstate⟩
  · rw [hstate]
    exact .refl r
  · rw [hstate]
    exact .of_pointers r _ _

/-- a branch operation leaves the edits alone as well -/
theorem branch_pointers {r : Repository} {op : BranchOp} {o : Outcome} (ho : branch r op = .ok o) :
    o.state = { r with head := o.state.head, branches := o.state.branches } := by
  rcases branch_effect ho with
    ⟨-, hstate⟩ | ⟨name, start, -, ho⟩ | ⟨name, force, -, ho⟩ | ⟨given, source, target, -, -, ho⟩
  · rw [hstate]
  · obtain ⟨id, -, -, hstate⟩ := createBranch_effect ho
    rw [hstate]
  · obtain ⟨id, -, -, -, hstate⟩ := deleteBranch_effect ho
    rw [hstate]
  · rcases renameBranch_effect ho with ⟨-, hstate⟩ | ⟨-, -, ⟨id, -, hstate⟩ | ⟨-, -, hstate⟩⟩
    · rw [hstate]
    · rw [hstate]
    · rw [hstate]

theorem branch_repoints {r : Repository} {op : BranchOp} {o : Outcome} (ho : branch r op = .ok o) :
    Repoints r o.state := by
  rw [branch_pointers ho]
  exact .of_pointers r _ _

theorem currentBranch_eq_some {r : Repository} {name : BranchName} :
    r.currentBranch = some name ↔ r.head = .attached name := by
  unfold Repository.currentBranch
  cases r.head <;> simp

@[simp] theorem currentBranch_moveHead (r : Repository) (id : CommitId) :
    (r.moveHead id).currentBranch = r.currentBranch := by
  unfold Repository.moveHead Repository.currentBranch
  cases r.head <;> rfl

/-- only the branch that HEAD is on moves along with HEAD -/
theorem moveHead_otherBranch {r : Repository} {name : BranchName} (h : r.currentBranch ≠ some name) (id : CommitId) :
    (r.moveHead id).branches.get? name = r.branches.get? name := by
  rw [Ne, currentBranch_eq_some] at h
  unfold Repository.moveHead
  split
  · rename_i current hhead
    have hne : current ≠ name := by
      rintro rfl
      exact h hhead
    exact (Table.get?_insert ..).trans (if_neg hne)
  · rfl

theorem moveHead_branches {r r' : Repository} (hbranches : r'.branches = r.branches) (hhead : r'.head = r.head)
    (id : CommitId) : (r'.moveHead id).branches = (r.moveHead id).branches := by
  simp only [Repository.moveHead, hhead]
  cases r.head <;> simp [hbranches]

theorem addCommit_branches (r : Repository) (c : Commit) : (addCommit r c).branches = (r.moveHead c.id).branches := by
  refine moveHead_branches ?_ ?_ c.id
  · rfl
  · rfl

theorem headId_of_currentBranch {r : Repository} {name : BranchName} (h : r.currentBranch = some name) :
    r.headId = r.branches.get? name := by
  rw [Repository.headId, currentBranch_eq_some.1 h]

/-- an unborn HEAD follows a branch that does not exist -/
theorem attached_of_unborn {r : Repository} (h : r.headId = none) :
    ∃ name, r.head = .attached name ∧ r.branches.get? name = none := by
  unfold Repository.headId at h
  cases hhead : r.head with
  | attached name =>
    rw [hhead] at h
    exact ⟨name, rfl, h⟩
  | detached id =>
    rw [hhead] at h
    cases h

/-- HEAD stays where it is when the branches that change are not its own -/
theorem headId_of_otherBranches {r : Repository} {branches : Table CommitId} {id : CommitId} (hid : r.headId = some id)
    (hsame : ∀ name, r.branches.get? name = some id → r.currentBranch = some name → branches.get? name = some id) :
    ({ r with branches := branches } : Repository).headId = some id := by
  cases hhead : r.head with
  | attached name =>
    have hcurrent : r.currentBranch = some name := currentBranch_eq_some.2 hhead
    rw [headId_of_currentBranch hcurrent] at hid
    have hnew := hsame name hid hcurrent
    simp only [Repository.headId]
    exact hnew
  | detached id' =>
    rw [Repository.headId, hhead] at hid
    simp only [Repository.headId]
    exact hid

/-- a branch operation leaves HEAD at its commit -/
theorem branch_headId {r : Repository} {op : BranchOp} {o : Outcome} (ho : branch r op = .ok o) {head : CommitId}
    (hhead : r.headId = some head) : o.state.headId = some head := by
  rcases branch_effect ho with
    ⟨-, hstate⟩ | ⟨name, start, -, ho⟩ | ⟨name, force, -, ho⟩ | ⟨given, source, target, -, -, ho⟩
  · rw [hstate]
    exact hhead
  · obtain ⟨id, -, hnew, hstate⟩ := createBranch_effect ho
    rw [hstate]
    refine headId_of_otherBranches hhead (fun name' hname' _ => ?_)
    rw [Table.get?_insert, if_neg]
    · exact hname'
    · rintro rfl
      simp [Table.contains, hname'] at hnew
  · obtain ⟨id, -, hcurrent, -, hstate⟩ := deleteBranch_effect ho
    rw [hstate]
    refine headId_of_otherBranches hhead (fun name' hname' hcurrent' => ?_)
    rw [Table.get?_erase, if_neg]
    · exact hname'
    · rintro rfl
      exact hcurrent hcurrent'
  · rcases renameBranch_effect ho with ⟨-, hstate⟩ | ⟨-, hnew, ⟨id, hid, hstate⟩ | ⟨hnone, hcurrent, hstate⟩⟩
    · rw [hstate]
      exact hhead
    · rw [hstate]
      by_cases hcurrent : r.currentBranch = some source
      · rw [headId_of_currentBranch hcurrent, hid] at hhead
        simpa [Repository.headId, hcurrent] using hhead
      · simp only [hcurrent, if_false]
        refine headId_of_otherBranches hhead (fun name' hname' hcurrent' => ?_)
        rw [Table.get?_insert, if_neg, Table.get?_erase, if_neg]
        · exact hname'
        · rintro rfl
          exact hcurrent hcurrent'
        · rintro rfl
          simp [Table.contains, hname'] at hnew
    · rw [headId_of_currentBranch hcurrent, hnone] at hhead
      cases hhead

/-! ## Checkout -/

/-- a checkout ends with settled edits, leaves all as it is, or moves an unborn HEAD to another name -/
theorem checkout_pointers {r : Repository} {target : String} {mode : CheckoutMode} {o : Outcome}
    (ho : checkout r target mode = .ok o) :
    o.state = r ∨ (∃ next, Repoints r next ∧ next.headId.isSome = true ∧ o.state = next.settleEdits)
      ∨ (r.headId = none ∧ o.state = { r with head := .attached target }) := by
  have hdetached : checkoutDetached r target = .ok o →
      ∃ next, Repoints r next ∧ next.headId.isSome = true ∧ o.state = next.settleEdits := by
    intro ho
    obtain ⟨id, -, -, hstate⟩ := checkoutDetached_effect ho
    exact ⟨_, .of_pointers r (.detached id) r.branches, rfl, hstate⟩
  have hnamed : ∀ branchOnly, checkoutNamed r target branchOnly = .ok o →
      o.state = r ∨ ∃ next, Repoints r next ∧ next.headId.isSome = true ∧ o.state = next.settleEdits := by
    intro branchOnly ho
    rcases checkoutNamed_effect ho with ⟨-, hstate⟩ | ⟨id, hid, -, hstate⟩ | ⟨-, -, ho⟩
    · exact Or.inl hstate
    · exact Or.inr ⟨_, .of_pointers r (.attached target) r.branches, by simp [Repository.headId, hid], hstate⟩
    · exact Or.inr (hdetached ho)
  rcases (checkout_effect ho).2 with ⟨start, force, -, ho⟩ | ⟨-, ho⟩ | ⟨-, ho⟩ | ⟨-, ho⟩
  · rcases (checkoutNew_effect ho).2 with ⟨id, -, -, hstate⟩ | ⟨-, hunborn, hstate⟩
    · exact Or.inr (Or.inl ⟨_, .of_pointers r (.attached target) (r.branches.insert target id),
        by simp [Repository.headId], hstate⟩)
    · exact Or.inr (Or.inr ⟨hunborn, hstate⟩)
  · exact Or.inr (Or.inl (hdetached ho))
  · exact (hnamed true ho).imp_right Or.inl
  · exact (hnamed false ho).imp_right Or.inl

theorem checkout_repoints {r : Repository} {target : String} {mode : CheckoutMode} {o : Outcome}
    (ho : checkout r target mode = .ok o) : Repoints r o.state := by
  rcases checkout_pointers ho with hstate | ⟨next, hnext, -, hstate⟩ | ⟨-, hstate⟩
  · rw [hstate]
    exact .refl r
  · rw [hstate]
    exact hnext.settleEdits
  · rw [hstate]
    exact .of_pointers r _ _

/-! ## Reset -/

theorem resetHead_repoints (r : Repository) (id : Option CommitId) :
    Repoints { r with mergeHead := none } (resetHead r id) := by
  cases id with
  | none => exact .refl _
  | some id => exact .moveHead _ id

end RepoTutor.Transition
