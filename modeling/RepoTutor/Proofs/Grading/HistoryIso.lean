/-
Histories that branch and merge alike.

A history isomorphism carries the commits that one repository keeps to those that another keeps and respects parents in
order. It says nothing of what was committed, and nothing of commits that are no longer kept. Shapes agree along it
(`HistoryIso.shape_eq`): by induction over ancestry, since a shape is computed from the parents' shapes alone. So do the
signature (`HistoryIso.dagSignature_eq`), the number of commits and the number of merges.
-/
import Mathlib.Data.Set.Function
import RepoTutor.Proofs.Grading.Shapes

namespace RepoTutor.Grading

open Repo

/-- `φ` is a bijection of the kept commits that respects their parents in order -/
structure HistoryIso (φ : CommitId → CommitId) (r s : Repository) : Prop where
  bijOn : Set.BijOn φ {x | x ∈ r.reachable} {y | y ∈ s.reachable}
  parents : ∀ x ∈ r.reachable, s.parentsOf (φ x) = (r.parentsOf x).map φ

/-- a bijection between lists without repetitions lists the second in another order -/
theorem perm_map_of_bijOn {α β : Type} {φ : α → β} {l : List α} {l' : List β} (hl : l.Nodup) (hl' : l'.Nodup)
    (h : Set.BijOn φ {x | x ∈ l} {y | y ∈ l'}) : (l.map φ).Perm l' := by
  refine (List.perm_ext_iff_of_nodup (hl.map_on (fun x hx y hy hxy => h.injOn hx hy hxy)) hl').2 (fun y => ?_)
  rw [List.mem_map]
  constructor
  · rintro ⟨x, hx, rfl⟩
    exact h.mapsTo hx
  · intro hy
    obtain ⟨x, hx, hxy⟩ := h.surjOn hy
    exact ⟨x, hx, hxy⟩

namespace HistoryIso

variable {φ : CommitId → CommitId} {r s : Repository}

theorem mem (h : HistoryIso φ r s) {x : CommitId} (hx : x ∈ r.reachable) : φ x ∈ s.reachable := h.bijOn.mapsTo hx

theorem perm (h : HistoryIso φ r s) : (r.reachable.map φ).Perm s.reachable :=
  perm_map_of_bijOn r.nodup_reachable s.nodup_reachable h.bijOn

/-- **Shapes agree along an isomorphism.** -/
theorem shape_eq (h : HistoryIso φ r s) (hr : WellFormed r) (hs : WellFormed s) {x : CommitId} (hx : x ∈ r.reachable) :
    shape s (φ x) = shape r x := by
  induction x using hr.acyclic.induction with
  | _ x ih =>
    rw [Grading.shape_eq hs (hs.reachable_stored (h.mem hx)), Grading.shape_eq hr (hr.reachable_stored hx),
      h.parents x hx, List.map_map]
    congr 1
    exact List.map_congr_left (fun p hp => ih p hp (Repository.reachable_closed hx hp))

theorem dagSignature_eq (h : HistoryIso φ r s) (hr : WellFormed r) (hs : WellFormed s) :
    dagSignature s (commitShapes s) = dagSignature r (commitShapes r) := by
  refine (dagSignature_eq_iff hs hr).2 ((h.perm.map (shape s)).symm.trans ?_)
  rw [List.map_map]
  exact List.Perm.of_eq (List.map_congr_left (fun x hx => h.shape_eq hr hs hx))

theorem length_reachable (h : HistoryIso φ r s) : s.reachable.length = r.reachable.length := by
  rw [← h.perm.length_eq, List.length_map]

end HistoryIso

/-! ## Merges -/

theorem mergeCount_eq {r : Repository} (h : WellFormed r) :
    mergeCount r = r.reachable.countP (fun x => decide (1 < (r.parentsOf x).length)) := by
  have hfilter : ∀ ids : List CommitId, (∀ x ∈ ids, r.commits.contains x = true) →
      ((ids.filterMap r.commits.get?).filter Commit.isMerge).length =
        ids.countP (fun x => decide (1 < (r.parentsOf x).length)) := by
    intro ids hids
    induction ids with
    | nil => rfl
    | cons x ids ih =>
      obtain ⟨c, hc⟩ := Table.contains_eq_true.1 (hids x List.mem_cons_self)
      have hrest := ih (fun y hy => hids y (List.mem_cons_of_mem _ hy))
      rw [List.filterMap_cons, hc, List.countP_cons, ← hrest, Repository.parentsOf_of_get? hc]
      by_cases hmerge : 1 < c.parents.length
      · simp [Commit.isMerge, hmerge]
      · simp [Commit.isMerge, hmerge]
  exact hfilter r.reachable (fun x hx => h.reachable_stored hx)

theorem HistoryIso.mergeCount_eq {φ : CommitId → CommitId} {r s : Repository} (h : HistoryIso φ r s) (hr : WellFormed r)
    (hs : WellFormed s) : mergeCount s = mergeCount r := by
  rw [Grading.mergeCount_eq hs, Grading.mergeCount_eq hr, ← h.perm.countP_eq, List.countP_map]
  refine List.countP_congr (fun x hx => ?_)
  simp [h.parents x hx]

end RepoTutor.Grading
