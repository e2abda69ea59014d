/-
The shape of every commit, as an equation.

`commitShapes` passes over all commits again and again and settles those whose parents are settled. A pass only adds
(`foldl_settle_extends`), so the passes end with one that adds nothing, or with as many settled commits as there are.
Either way a well-formed repository ends with all its commits settled (`commitShapes_get?`), each with the shape computed
from the shapes of its parents. From then on a commit has a shape (`shape`) and the passes are not looked at again.

The signature of a history sorts the shapes of what is kept, so two signatures are equal exactly when the shapes agree
up to their order (`dagSignature_eq_iff`).
-/
import Mathlib.Data.List.Sort
import RepoTutor.Grading.Shape
import RepoTutor.Proofs.Repo.WellFormed

namespace RepoTutor.Grading

open Repo

/-! ## One pass -/

theorem mapM_get?_mono {shapes shapes' : Table String} (h : shapes.Extends shapes') {ids : List CommitId}
    {found : List String} (hfound : ids.mapM shapes.get? = some found) : ids.mapM shapes'.get? = some found := by
  induction ids generalizing found with
  | nil => exact hfound
  | cons id ids ih =>
    rw [List.mapM_cons] at hfound ⊢
    obtain ⟨s, hs, hfound⟩ := Option.bind_eq_some_iff.1 hfound
    obtain ⟨rest, hrest, hfound⟩ := Option.bind_eq_some_iff.1 hfound
    simp [h id s hs, ih hrest, Option.some.inj hfound]

theorem settle_extends (shapes : Table String) (e : CommitId × Commit) : shapes.Extends (settle shapes e) := by
  unfold settle
  split
  · exact .refl shapes
  · rename_i hnew
    split
    · intro k v hk
      rw [Table.get?_insert, if_neg]
      · exact hk
      · rintro rfl
        exact hnew (Table.contains_of_get? hk)
    · exact .refl shapes

theorem foldl_settle_extends (l : List (CommitId × Commit)) (shapes : Table String) :
    shapes.Extends (l.foldl settle shapes) := by
  induction l generalizing shapes with
  | nil => exact .refl shapes
  | cons e l ih => exact (settle_extends shapes e).trans (ih _)

theorem settle_contains {shapes : Table String} {e : CommitId × Commit} {found : List String}
    (hfound : e.2.parents.mapM shapes.get? = some found) : (settle shapes e).contains e.1 = true := by
  unfold settle
  split
  · assumption
  · rw [hfound]
    exact (Table.contains_insert _ _ _ _).2 (Or.inl rfl)

/-- a pass settles every commit whose parents are settled before it -/
theorem foldl_settle_contains {l : List (CommitId × Commit)} {shapes : Table String} {e : CommitId × Commit} (he : e ∈ l)
    {found : List String} (hfound : e.2.parents.mapM shapes.get? = some found) :
    (l.foldl settle shapes).contains e.1 = true := by
  induction l generalizing shapes with
  | nil => exact absurd he List.not_mem_nil
  | cons e' l ih =>
    rcases List.mem_cons.1 he with rfl | he
    · exact (foldl_settle_extends l _).contains (settle_contains hfound)
    · exact ih he (mapM_get?_mono (settle_extends shapes e') hfound)

/-! ## What is settled -/

/-- what is settled is a commit with settled parents, and has the shape computed from theirs -/
def Settled (r : Repository) (shapes : Table String) : Prop :=
  ∀ id s, shapes.get? id = some s →
    ∃ c found, r.commits.get? id = some c ∧ c.parents.mapM shapes.get? = some found ∧ s = shapeId found

theorem Settled.settle {r : Repository} {shapes : Table String} (h : Settled r shapes) {e : CommitId × Commit}
    (he : e ∈ r.commits.entries) : Settled r (settle shapes e) := by
  have hmono := settle_extends shapes e
  intro id s hs
  by_cases hold : ∃ s', shapes.get? id = some s'
  · obtain ⟨s', hs'⟩ := hold
    obtain rfl : s' = s := Option.some.inj ((hmono id s' hs').symm.trans hs)
    obtain ⟨c, found, hc, hfound, rfl⟩ := h id s' hs'
    exact ⟨c, found, hc, mapM_get?_mono hmono hfound, rfl⟩
  · unfold Grading.settle at hs
    split at hs
    · exact absurd ⟨s, hs⟩ hold
    · rename_i hnew
      split at hs
      · rename_i found hfound
        rw [Table.get?_insert] at hs
        split at hs
        · rename_i heq
          cases hs
          exact ⟨e.2, found, heq ▸ Table.get?_eq_some_iff.2 he, mapM_get?_mono hmono hfound, rfl⟩
        · exact absurd ⟨s, hs⟩ hold
      · exact absurd ⟨s, hs⟩ hold

theorem Settled.foldl {r : Repository} {l : List (CommitId × Commit)} (hl : ∀ e ∈ l, e ∈ r.commits.entries)
    {shapes : Table String} (h : Settled r shapes) : Settled r (l.foldl Grading.settle shapes) := by
  induction l generalizing shapes with
  | nil => exact h
  | cons e l ih =>
    exact ih (fun e' he' => hl e' (List.mem_cons_of_mem _ he')) (h.settle (hl e List.mem_cons_self))

/-- the passes end with one that adds nothing, or each of them has added something -/
theorem settleRounds_spec {r : Repository} (n : Nat) {shapes : Table String} (h : Settled r shapes) :
    Settled r (settleRounds r n shapes)
      ∧ ((settleAll r (settleRounds r n shapes)).size = (settleRounds r n shapes).size
        ∨ shapes.size + n ≤ (settleRounds r n shapes).size) := by
  induction n generalizing shapes with
  | zero => exact ⟨h, Or.inr (Nat.le_refl _)⟩
  | succ n ih =>
    simp only [settleRounds]
    split
    · rename_i hsame
      exact ⟨h, Or.inl hsame⟩
    · rename_i hgrown
      have hpass : Settled r (settleAll r shapes) := h.foldl (fun e he => he)
      have hle : shapes.size ≤ (settleAll r shapes).size :=
        Table.size_le_of_keys_subset (foldl_settle_extends _ shapes).keys_subset
      obtain ⟨hsettled, hend⟩ := ih hpass
      refine ⟨hsettled, hend.imp_right (fun hsize => ?_)⟩
      omega

/-- a pass that adds nothing leaves no commit out -/
theorem contains_of_fixed {r : Repository} (h : WellFormed r) {shapes : Table String}
    (hfixed : (settleAll r shapes).size = shapes.size) (id : CommitId) (hid : r.commits.contains id = true) :
    shapes.contains id = true := by
  induction id using h.acyclic.induction with
  | _ id ih =>
    obtain ⟨c, hc⟩ := Table.contains_eq_true.1 hid
    have hparents : ∀ p ∈ c.parents, ∃ s, shapes.get? p = some s := fun p hp =>
      Table.contains_eq_true.1 (ih p (Repository.isParent_iff.2 ⟨c, hc, hp⟩) ((h.commit id c hc).parents p hp))
    obtain ⟨found, hfound⟩ := exists_mapM_eq_some hparents
    have hnext : (settleAll r shapes).contains id = true :=
      foldl_settle_contains (Table.get?_eq_some_iff.1 hc) hfound
    exact Table.contains_iff_mem_keys.2 (Table.keys_subset_of_size_le (foldl_settle_extends _ shapes).keys_subset
      hfixed.le (Table.contains_iff_mem_keys.1 hnext))

theorem Settled.contains_of_size {r : Repository} {shapes : Table String} (h : Settled r shapes)
    (hsize : r.commits.size ≤ shapes.size) (id : CommitId) (hid : r.commits.contains id = true) :
    shapes.contains id = true := by
  have hsub : shapes.keys ⊆ r.commits.keys := by
    intro k hk
    obtain ⟨s, hs⟩ := Table.mem_keys.1 hk
    obtain ⟨c, -, hc, -⟩ := h k s hs
    exact Table.mem_keys.2 ⟨c, hc⟩
  exact Table.contains_iff_mem_keys.2 (Table.keys_subset_of_size_le hsub hsize (Table.contains_iff_mem_keys.1 hid))

/-! ## The shape of a commit -/

/-- shape of a commit; of what is no commit, the empty text -/
def shape (r : Repository) (id : CommitId) : String := ((commitShapes r).get? id).getD ""

/-- **All commits are settled**, with the shapes computed from their parents'. -/
theorem commitShapes_get? {r : Repository} (h : WellFormed r) (id : CommitId) :
    (commitShapes r).get? id = (r.commits.get? id).map (fun c => shapeId (c.parents.map (shape r))) := by
  have hempty : Settled r .empty := fun id s hs => by simp at hs
  obtain ⟨hsettled, hend⟩ := settleRounds_spec r.commits.size hempty
  have hall : ∀ id, r.commits.contains id = true → (commitShapes r).contains id = true := by
    rcases hend with hfixed | hsize
    · exact contains_of_fixed h hfixed
    · exact hsettled.contains_of_size (Nat.le_trans (Nat.le_add_left _ _) hsize)
  cases hc : r.commits.get? id with
  | none =>
    cases hs : (commitShapes r).get? id with
    | none => rfl
    | some s =>
      obtain ⟨c, -, hc', -⟩ := hsettled id s hs
      rw [hc] at hc'
      cases hc'
  | some c =>
    obtain ⟨s, hs⟩ := Table.contains_eq_true.1 (hall id (Table.contains_of_get? hc))
    obtain ⟨c', found, hc', hfound, rfl⟩ := hsettled id s hs
    cases hc.symm.trans hc'
    have hget : c.parents.map (commitShapes r).get? = found.map some := mapM_eq_some.1 hfound
    have hmap : c.parents.map (shape r) = found := calc
      c.parents.map (shape r) = (c.parents.map (commitShapes r).get?).map (fun s => s.getD "") := by
        rw [List.map_map]
        rfl
      _ = found := by
        rw [hget, List.map_map]
        exact List.map_id found
    rw [hs, Option.map_some, hmap]

theorem shape_eq {r : Repository} (h : WellFormed r) {id : CommitId} (hid : r.commits.contains id = true) :
    shape r id = shapeId ((r.parentsOf id).map (shape r)) := by
  obtain ⟨c, hc⟩ := Table.contains_eq_true.1 hid
  rw [shape, commitShapes_get? h, hc, Repository.parentsOf_of_get? hc]
  rfl

theorem get?_shape {r : Repository} (h : WellFormed r) {id : CommitId} (hid : r.commits.contains id = true) :
    (commitShapes r).get? id = some (shape r id) := by
  obtain ⟨c, hc⟩ := Table.contains_eq_true.1 hid
  rw [shape, commitShapes_get? h, hc]
  rfl

/-! ## Signatures -/

theorem dagSignature_eq {r : Repository} (h : WellFormed r) :
    dagSignature r (commitShapes r) = (r.reachable.map (shape r)).mergeSort (fun a b => decide (a ≤ b)) := by
  rw [dagSignature]
  congr 1
  rw [← List.filterMap_eq_map]
  exact List.filterMap_congr (fun id hid => get?_shape h (h.reachable_stored hid))

theorem mergeSort_eq_iff {l l' : List String} :
    l.mergeSort (fun a b => decide (a ≤ b)) = l'.mergeSort (fun a b => decide (a ≤ b)) ↔ l.Perm l' := by
  constructor
  · intro h
    exact (List.mergeSort_perm l _).symm.trans (h ▸ List.mergeSort_perm l' _)
  · intro h
    have hsorted : ∀ l : List String, (l.mergeSort (fun a b => decide (a ≤ b))).Pairwise (· ≤ ·) := by
      intro l
      refine (List.pairwise_mergeSort (fun a b c hab hbc => ?_) (fun a b => ?_) l).imp (fun hab => by simpa using hab)
      · simp only [decide_eq_true_eq] at hab hbc ⊢
        exact String.le_trans hab hbc
      · simpa using String.le_total a b
    refine List.Perm.eq_of_pairwise (fun a b _ _ hab hba => String.le_antisymm hab hba) (hsorted l) (hsorted l') ?_
    exact (List.mergeSort_perm l _).trans (h.trans (List.mergeSort_perm l' _).symm)

/-- **Equal signatures are equal shapes up to order.** -/
theorem dagSignature_eq_iff {r s : Repository} (hr : WellFormed r) (hs : WellFormed s) :
    dagSignature r (commitShapes r) = dagSignature s (commitShapes s) ↔
      (r.reachable.map (shape r)).Perm (s.reachable.map (shape s)) := by
  rw [dagSignature_eq hr, dagSignature_eq hs, mergeSort_eq_iff]

end RepoTutor.Grading
