/-
No operation by itself is refused as an internal error.

A refusal is ordinary when the learner caused it. Operations are sequences of checks, and a sequence is refused with the
refusal of one of its parts, so it is enough to look at every check once (`Ordinary.bind`).
-/
import RepoTutor.Proofs.Data.Except
import RepoTutor.Transition.Apply

namespace RepoTutor.Transition

open Command Repo

/-- if there is a refusal, then it is no internal error -/
def Ordinary {α : Type} (x : Refusable α) : Prop := ∀ e, x = .error e → e.isFatal = false

namespace Ordinary

variable {α β : Type}

theorem ok (a : α) : Ordinary (.ok a : Refusable α) := fun _ h => by cases h

theorem error {e : TransitionError} (he : e.isFatal = false) : Ordinary (.error e : Refusable α) := by
  intro e' h
  cases h
  exact he

theorem bind {x : Refusable α} {f : α → Refusable β} (hx : Ordinary x) (hf : ∀ a, Ordinary (f a)) :
    Ordinary (x >>= f) := by
  intro e h
  rcases Except.bind_eq_error.1 h with h | ⟨a, -, h⟩
  · exact hx e h
  · exact hf a e h

theorem map {x : Refusable α} (hx : Ordinary x) (f : α → β) : Ordinary (x.map f) := by
  intro e h
  cases x with
  | error e' => exact hx e (by simpa [Except.map] using h)
  | ok a => simp [Except.map] at h

theorem ite {c : Prop} [Decidable c] {x y : Refusable α} (hx : Ordinary x) (hy : Ordinary y) :
    Ordinary (if c then x else y) := by
  split
  · exact hx
  · exact hy

theorem foldlM {f : β → α → Refusable β} (hf : ∀ b a, Ordinary (f b a)) (l : List α) (b : β) :
    Ordinary (l.foldlM f b) := by
  induction l generalizing b with
  | nil => exact ok b
  | cons a l ih => exact bind (hf b a) (fun b' => ih b')

end Ordinary

/-! ## Checks -/

theorem ordinary_resolveRef (r : Repository) (rev : String) : Ordinary (resolveRef r rev) := by
  unfold resolveRef
  split
  · exact .ok _
  · exact .error rfl

theorem ordinary_bornHead (r : Repository) : Ordinary (bornHead r) := by
  unfold bornHead
  split
  · exact .ok _
  · exact .error rfl

theorem ordinary_checkOverwrite (r : Repository) (target : Tree) : Ordinary (r.checkOverwrite target) := by
  unfold Repository.checkOverwrite
  split
  · exact .ok _
  · exact .error rfl

theorem ordinary_checkKnownPaths (r : Repository) (paths : List Path) : Ordinary (checkKnownPaths r paths) := by
  unfold checkKnownPaths
  split
  · exact .error rfl
  · exact .ok _

theorem ordinary_matchPathspec (spec : String) (candidates : List Path) : Ordinary (matchPathspec spec candidates) := by
  unfold matchPathspec
  refine .ite ?_ (.ok _)
  split
  · exact .ok _
  · exact .error rfl

/-! ## Operations -/

theorem ordinary_add (r : Repository) (pathspecs : List String) (all : Bool) : Ordinary (add r pathspecs all) := by
  unfold add
  refine .ite (.ok _) (.bind (.foldlM (fun s spec => ?_) _ _) (fun _ => .ok _))
  refine .bind (ordinary_matchPathspec spec _) (fun matched => ?_)
  cases matched with
  | nil => exact .ite (.error rfl) (.ok _)
  | cons path rest => exact .ok _

theorem ordinary_remove (r : Repository) (paths : List Path) : Ordinary (remove r paths) :=
  .bind (ordinary_checkKnownPaths r paths) (fun _ => .ok _)

theorem ordinary_restore (r : Repository) (paths : List Path) (staged : Bool) : Ordinary (restore r paths staged) :=
  .bind (ordinary_checkKnownPaths r paths) (fun _ => .ite (.ok _) (.ok _))

theorem ordinary_commit (r : Repository) (args : CommitArgs) : Ordinary (commit r args) := by
  have hamend : ∀ r, Ordinary (amendDraft r args) := by
    intro r
    unfold amendDraft
    split
    · exact .error rfl
    · exact .ok _
  have hmessage : ∀ r, Ordinary (commitMessage r args) := by
    intro r
    unfold commitMessage
    split
    · exact .ok _
    · exact .ok _
    · exact .error rfl
  have hfresh : ∀ r, Ordinary (freshDraft r args) := by
    intro r
    unfold freshDraft
    exact .ite (.error rfl) (.bind (hmessage r) (fun _ => .ok _))
  unfold commit
  exact .ite (.error rfl) (.ite (.bind (hamend _) (fun _ => .ok _)) (.bind (hfresh _) (fun _ => .ok _)))

theorem ordinary_createBranch (r : Repository) (name : BranchName) (start : Option String) :
    Ordinary (createBranch r name start) := by
  unfold createBranch
  refine .ite (.error rfl) ?_
  cases start with
  | none => exact .bind (ordinary_bornHead r) (fun _ => .ok _)
  | some rev => exact .bind (ordinary_resolveRef r rev) (fun _ => .ok _)

theorem ordinary_deleteBranch (r : Repository) (name : BranchName) (force : Bool) :
    Ordinary (deleteBranch r name force) := by
  unfold deleteBranch
  split
  · exact .error rfl
  · exact .ite (.error rfl) (.ite (.error rfl) (.ok _))

theorem ordinary_renameBranch (r : Repository) (source target : BranchName) :
    Ordinary (renameBranch r source target) := by
  unfold renameBranch
  refine .ite (.ok _) (.ite (.error rfl) ?_)
  split
  · exact .ok _
  · exact .ite (.ok _) (.error rfl)

theorem ordinary_branch (r : Repository) (op : BranchOp) : Ordinary (branch r op) := by
  cases op with
  | list => exact .ok _
  | create name start => exact ordinary_createBranch r name start
  | delete name force => exact ordinary_deleteBranch r name force
  | rename source target =>
    cases source with
    | some source => exact ordinary_renameBranch r source target
    | none =>
      simp only [branch]
      split
      · exact ordinary_renameBranch r _ target
      · exact .error rfl

theorem ordinary_switchHead (r : Repository) (head : Head) (id : CommitId) : Ordinary (switchHead r head id) :=
  .bind (ordinary_checkOverwrite r _) (fun _ => .ok _)

theorem ordinary_checkoutNew (r : Repository) (name : BranchName) (start : Option String) (force : Bool) :
    Ordinary (checkoutNew r name start force) := by
  unfold checkoutNew
  refine .ite (.error rfl) ?_
  cases start with
  | some rev =>
    refine .bind (.map (ordinary_resolveRef r rev) _) (fun target => ?_)
    cases target with
    | some id => exact .bind (ordinary_checkOverwrite r _) (fun _ => .ok _)
    | none => exact .ok _
  | none =>
    refine .bind (.ok _) (fun target => ?_)
    cases target with
    | some id => exact .bind (ordinary_checkOverwrite r _) (fun _ => .ok _)
    | none => exact .ok _

theorem ordinary_checkoutDetached (r : Repository) (rev : String) : Ordinary (checkoutDetached r rev) :=
  .bind (ordinary_resolveRef r rev) (fun id => .bind (ordinary_switchHead r _ id) (fun _ => .ok _))

theorem ordinary_checkoutNamed (r : Repository) (target : String) (branchOnly : Bool) :
    Ordinary (checkoutNamed r target branchOnly) := by
  unfold checkoutNamed
  refine .ite (.ok _) ?_
  split
  · exact .bind (ordinary_switchHead r _ _) (fun _ => .ok _)
  · exact .ite (.ite (.error rfl) (.error rfl)) (ordinary_checkoutDetached r target)

theorem ordinary_checkout (r : Repository) (target : String) (mode : CheckoutMode) :
    Ordinary (checkout r target mode) := by
  unfold checkout
  refine .ite (.error rfl) ?_
  cases mode with
  | create start force => exact ordinary_checkoutNew r target start force
  | detach => exact ordinary_checkoutDetached r target
  | branchOnly => exact ordinary_checkoutNamed r target true
  | any => exact ordinary_checkoutNamed r target false

theorem ordinary_advance (r : Repository) (id : CommitId) : Ordinary (advance r id) :=
  .bind (ordinary_checkOverwrite r _) (fun _ => .ok _)

theorem ordinary_trueMerge (r : Repository) (source : String) (ours theirs : CommitId) (commit : Bool)
    (message : Option String) : Ordinary (trueMerge r source ours theirs commit message) := by
  unfold trueMerge
  split
  · exact .error rfl
  · dsimp only
    split
    · exact .error rfl
    · exact .bind (ordinary_checkOverwrite r _) (fun _ => .ite (.ok _) (.ok _))

theorem ordinary_merge (r : Repository) (source : String) (ff : FastForward) (commit : Bool)
    (message : Option String) : Ordinary (merge r source ff commit message) := by
  unfold merge
  refine .ite (.error rfl) (.ite (.error rfl) (.bind (ordinary_resolveRef r source) (fun theirs => ?_)))
  split
  · exact .bind (ordinary_advance r theirs) (fun _ => .ok _)
  · rename_i ours _
    exact .ite (.ok _) (.ite (.bind (ordinary_advance r theirs) (fun _ => .ok _))
      (.ite (.error rfl) (ordinary_trueMerge r source ours theirs commit message)))

theorem ordinary_abortMerge (r : Repository) : Ordinary (abortMerge r) := .ite (.error rfl) (.ok _)

theorem ordinary_log (r : Repository) (target : Option String) (limit : Option Nat) (oneline : Bool) :
    Ordinary (log r target limit oneline) := by
  unfold log
  cases target with
  | some rev => exact .bind (ordinary_resolveRef r rev) (fun _ => .ok _)
  | none => exact .bind (ordinary_bornHead r) (fun _ => .ok _)

theorem ordinary_deleteFiles (r : Repository) (paths : List Path) : Ordinary (deleteFiles r paths) := by
  unfold deleteFiles
  split
  · exact .error rfl
  · exact .ok _

end RepoTutor.Transition
