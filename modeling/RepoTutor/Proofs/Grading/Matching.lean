/-
Matching commits by their shapes.

Lists of shapes that agree up to order are as good as a bijection of the commits that respects shapes
(`perm_map_iff_exists_bijOn`). There may be many such bijections: those of commits that look alike can be exchanged
(`Matching.swap`). So a matching can be turned into one that carries given commits to given commits of the same shapes
and is as before on all commits of other shapes (`Matching.align`).
-/
import Mathlib.Logic.Equiv.Set
import RepoTutor.Proofs.Grading.HistoryIso

namespace RepoTutor.Grading

open Repo

/-! ## Lists up to order -/

theorem exists_map_eq {α β : Type} [DecidableEq α] [Inhabited β] {l : List α} (hl : l.Nodup) {l' : List β}
    (hlength : l.length = l'.length) : ∃ φ : α → β, l.map φ = l' := by
  induction l generalizing l' with
  | nil => exact ⟨fun _ => default, (List.length_eq_zero_iff.1 hlength.symm).symm⟩
  | cons a l ih =>
    obtain ⟨b, l', rfl⟩ := List.exists_cons_of_length_eq_add_one hlength.symm
    obtain ⟨hfresh, hl⟩ := List.nodup_cons.1 hl
    obtain ⟨φ, hφ⟩ := ih hl (Nat.succ.inj hlength)
    refine ⟨Function.update φ a b, ?_⟩
    have hrest : l.map (Function.update φ a b) = l.map φ :=
      List.map_congr_left (fun x hx => Function.update_of_ne (fun (h : x = a) => hfresh (h ▸ hx)) b φ)
    rw [List.map_cons, Function.update_self, hrest, hφ]

theorem bijOn_of_perm_map {α β : Type} {φ : α → β} {l : List α} {l' : List β} (hl' : l'.Nodup)
    (h : (l.map φ).Perm l') : Set.BijOn φ {x | x ∈ l} {y | y ∈ l'} := by
  refine ⟨fun x hx => h.subset (List.mem_map_of_mem hx), ?_, fun y hy => ?_⟩
  · intro x hx y hy hxy
    exact List.inj_on_of_nodup_map (h.nodup_iff.2 hl') hx hy hxy
  · obtain ⟨x, hx, hxy⟩ := List.mem_map.1 (h.symm.subset hy)
    exact ⟨x, hx, hxy⟩

/-- two lists without repetitions show the same up to order exactly when a bijection respects what they show -/
theorem perm_map_iff_exists_bijOn {α β γ : Type} [DecidableEq α] [Inhabited β] {f : α → γ} {g : β → γ} {l : List α}
    {l' : List β} (hl : l.Nodup) (hl' : l'.Nodup) :
    (l.map f).Perm (l'.map g) ↔ ∃ φ : α → β, Set.BijOn φ {x | x ∈ l} {y | y ∈ l'} ∧ ∀ x ∈ l, g (φ x) = f x := by
  constructor
  · intro h
    obtain ⟨l'', hmap, hperm⟩ : Relation.Comp (fun shown bs => shown = List.map g bs) List.Perm (l.map f) l' := by
      rw [List.eq_map_comp_perm]
      exact h
    have hlength : l.length = l''.length := by simpa using congrArg List.length hmap
    obtain ⟨φ, rfl⟩ := exists_map_eq hl hlength
    refine ⟨φ, bijOn_of_perm_map hl' hperm, ?_⟩
    rw [List.map_map] at hmap
    exact fun x hx => (List.map_inj_left.1 hmap x hx).symm
  · rintro ⟨φ, hbij, hshown⟩
    have hmap : l.map f = (l.map φ).map g := by
      rw [List.map_map]
      exact List.map_congr_left (fun x hx => (hshown x hx).symm)
    rw [hmap]
    exact (perm_map_of_bijOn hl hl' hbij).map g

/-! ## Matchings -/

/-- `φ` is a bijection of the kept commits that respects their shapes -/
structure Matching (φ : CommitId → CommitId) (r s : Repository) : Prop where
  bijOn : Set.BijOn φ {x | x ∈ r.reachable} {y | y ∈ s.reachable}
  shape : ∀ x ∈ r.reachable, shape s (φ x) = shape r x

/-- **Equal signatures are a matching.** -/
theorem dagSignature_eq_iff_matching {r s : Repository} (hr : WellFormed r) (hs : WellFormed s) :
    dagSignature r (commitShapes r) = dagSignature s (commitShapes s) ↔ ∃ φ, Matching φ r s := by
  rw [dagSignature_eq_iff hr hs, perm_map_iff_exists_bijOn r.nodup_reachable s.nodup_reachable]
  exact exists_congr (fun φ => ⟨fun h => ⟨h.1, h.2⟩, fun h => ⟨h.bijOn, h.shape⟩⟩)

namespace Matching

variable {φ : CommitId → CommitId} {r s : Repository}

theorem swap (h : Matching φ r s) {a b : CommitId} (ha : a ∈ r.reachable) (hb : b ∈ r.reachable)
    (hab : Grading.shape r a = Grading.shape r b) : Matching (φ ∘ Equiv.swap a b) r s := by
  have hswap : Set.BijOn (Equiv.swap a b) {x | x ∈ r.reachable} {x | x ∈ r.reachable} :=
    Equiv.swap_bijOn_self (iff_of_true ha hb)
  refine ⟨h.bijOn.comp hswap, fun x hx => ?_⟩
  rw [Function.comp_apply, h.shape _ (hswap.mapsTo hx), Equiv.swap_apply_def]
  split
  · rename_i hxa
    rw [hxa, hab]
  · split
    · rename_i hxb
      rw [hxb, hab]
    · rfl

/-- given commits can be carried to given commits of the same shapes, and commits of other shapes stay -/
theorem align (h : Matching φ r s) {ps qs : List CommitId} (hps : ps.Nodup) (hqs : qs.Nodup)
    (hkept : ∀ p ∈ ps, p ∈ r.reachable) (hkept' : ∀ q ∈ qs, q ∈ s.reachable)
    (hshapes : ps.map (Grading.shape r) = qs.map (Grading.shape s)) :
    ∃ φ', Matching φ' r s ∧ ps.map φ' = qs
      ∧ ∀ x, Grading.shape r x ∉ ps.map (Grading.shape r) → φ' x = φ x := by
  induction ps generalizing qs with
  | nil => exact ⟨φ, h, (List.map_eq_nil_iff.1 hshapes.symm).symm, fun _ _ => rfl⟩
  | cons p ps ih =>
    obtain ⟨q, qs, rfl⟩ : ∃ q qs', qs = q :: qs' :=
      List.exists_cons_of_length_eq_add_one (by simpa using (congrArg List.length hshapes).symm)
    obtain ⟨hpfresh, hps⟩ := List.nodup_cons.1 hps
    obtain ⟨hqfresh, hqs⟩ := List.nodup_cons.1 hqs
    obtain ⟨hshape, hshapes⟩ := List.cons.inj hshapes
    have hp : p ∈ r.reachable := hkept p List.mem_cons_self
    obtain ⟨φ₁, h₁, hmap, hframe⟩ := ih hps hqs (fun x hx => hkept x (List.mem_cons_of_mem _ hx))
      (fun x hx => hkept' x (List.mem_cons_of_mem _ hx)) hshapes
    -- the commit that is carried to `q` so far takes the place of `p`
    obtain ⟨a, ha, haq⟩ := h₁.bijOn.surjOn (hkept' q List.mem_cons_self)
    have hap : Grading.shape r a = Grading.shape r p := by
      rw [hshape, ← haq, h₁.shape a ha]
    refine ⟨φ₁ ∘ Equiv.swap a p, h₁.swap ha hp hap, ?_, fun x hx => ?_⟩
    · have hrest : ps.map (φ₁ ∘ Equiv.swap a p) = ps.map φ₁ := by
        refine List.map_congr_left (fun x hx => ?_)
        rw [Function.comp_apply, Equiv.swap_apply_of_ne_of_ne]
        · rintro rfl
          exact hqfresh (hmap ▸ haq ▸ List.mem_map_of_mem hx)
        · rintro rfl
          exact hpfresh hx
      rw [List.map_cons, hrest, hmap, Function.comp_apply, Equiv.swap_apply_right, haq]
    · rw [List.map_cons, List.mem_cons, not_or] at hx
      rw [Function.comp_apply, Equiv.swap_apply_of_ne_of_ne, hframe x hx.2]
      · rintro rfl
        exact hx.1 hap
      · rintro rfl
        exact hx.1 rfl

end Matching

end RepoTutor.Grading
