/-
Three-way merge of trees, path by path.

`mergeTrees` succeeds exactly when no path is in conflict, and then the merged tree holds `mergedEntry` at every path,
also at those that no tree holds (`mergeTrees_eq_ok`). `mergeTrees_eq_theirs_iff` tells when a merge brings in exactly
the tree of the other side.
-/
import Mathlib.Logic.Basic
import Mathlib.Tactic.ByContra
import RepoTutor.Proofs.Data.Membership
import RepoTutor.Repo.TreeMerge

namespace RepoTutor.Repo

variable {base ours theirs : Tree}

/-- the paths that a merge looks at are those that some tree holds -/
theorem mem_mergePaths {p : Path} :
    p ∈ (Table.ofKeys (base.keys ++ ours.keys ++ theirs.keys)).keys ↔
      base.get? p ≠ none ∨ ours.get? p ≠ none ∨ theirs.get? p ≠ none := by
  show p ∈ ascendingKeys _ ↔ _
  simp only [mem_ascendingKeys, List.mem_append, Table.mem_keys, Option.ne_none_iff_exists', or_assoc]

theorem isConflicting_iff {p : Path} :
    isConflicting base ours theirs p = true ↔
      ours.get? p ≠ theirs.get? p ∧ theirs.get? p ≠ base.get? p ∧ ours.get? p ≠ base.get? p := by
  simp only [isConflicting, Bool.and_eq_true, bne_iff_ne, and_assoc]

theorem conflicts_eq_nil_iff :
    (Table.ofKeys (base.keys ++ ours.keys ++ theirs.keys)).keys.filter (isConflicting base ours theirs) = [] ↔
      ∀ p, isConflicting base ours theirs p = false := by
  rw [List.filter_eq_nil_iff]
  constructor
  · intro h p
    by_contra hp
    have hp : isConflicting base ours theirs p = true := by simpa using hp
    refine h p (mem_mergePaths.2 ?_) hp
    -- a conflicting path is held by ours or by theirs
    by_cases ho : ours.get? p = none
    · exact Or.inr (Or.inr (fun ht => (isConflicting_iff.1 hp).1 (ho.trans ht.symm)))
    · exact Or.inr (Or.inl ho)
  · intro h p _
    simp [h p]

/-- a path that no tree holds is absent from the merge -/
theorem mergedEntry_of_absent {p : Path} (ho : ours.get? p = none) (ht : theirs.get? p = none) :
    mergedEntry base ours theirs p = none := by
  simp [mergedEntry, ho, ht]

theorem get?_mergePaths_filterMap (p : Path) :
    ((Table.ofKeys (base.keys ++ ours.keys ++ theirs.keys)).filterMap
      (fun p _ => mergedEntry base ours theirs p)).get? p = mergedEntry base ours theirs p := by
  rw [Table.get?_filterMap]
  cases hp : (Table.ofKeys (base.keys ++ ours.keys ++ theirs.keys)).get? p with
  | some u => rfl
  | none =>
    have hnot : ¬ (base.get? p ≠ none ∨ ours.get? p ≠ none ∨ theirs.get? p ≠ none) := by
      rw [← mem_mergePaths, Table.mem_keys, hp]
      simp
    simp only [not_or, not_not] at hnot
    exact (mergedEntry_of_absent hnot.2.1 hnot.2.2).symm

/-- **A merge succeeds exactly without conflicts**, and then holds the merged entry at every path. -/
theorem mergeTrees_eq_ok {merged : Tree} :
    mergeTrees base ours theirs = .ok merged ↔
      (∀ p, isConflicting base ours theirs p = false) ∧ ∀ p, merged.get? p = mergedEntry base ours theirs p := by
  unfold mergeTrees
  dsimp only
  split
  · rename_i hnil
    have hnone := conflicts_eq_nil_iff.1 hnil
    simp only [Except.ok.injEq]
    constructor
    · rintro rfl
      exact ⟨hnone, get?_mergePaths_filterMap⟩
    · rintro ⟨-, h⟩
      exact Table.ext_get? (fun p => (get?_mergePaths_filterMap p).trans (h p).symm)
  · rename_i hne
    simp only [reduceCtorEq, false_iff, not_and]
    exact fun hnone => absurd (conflicts_eq_nil_iff.2 hnone) hne

theorem mergeTrees_of_noConflict (h : ∀ p, isConflicting base ours theirs p = false) :
    ∃ merged, mergeTrees base ours theirs = .ok merged :=
  ⟨_, mergeTrees_eq_ok.2 ⟨h, get?_mergePaths_filterMap⟩⟩

/-- **A merge that brings in exactly their tree**: every path on which the sides differ is on our side as in the base -/
theorem mergeTrees_eq_theirs_iff :
    mergeTrees base ours theirs = .ok theirs ↔ ∀ p, ours.get? p = theirs.get? p ∨ ours.get? p = base.get? p := by
  rw [mergeTrees_eq_ok, ← forall_and]
  refine forall_congr' (fun p => ?_)
  rw [Bool.eq_false_iff, ne_eq, isConflicting_iff, mergedEntry]
  constructor
  · rintro ⟨hconflict, hentry⟩
    by_contra hne
    rw [not_or] at hne
    split at hentry
    · exact hne.1 hentry.symm
    · rename_i h
      exact hconflict ⟨hne.1, (not_or.1 h).2, hne.2⟩
  · intro h
    refine ⟨fun hc => h.elim hc.1 hc.2.2, ?_⟩
    split
    · rename_i hkeep
      rcases h with h | h
      · exact h.symm
      · exact hkeep.elim Eq.symm (fun ht => ht.trans h.symm)
    · rfl

/-- the merge holds nothing that neither side holds -/
theorem mergedEntry_eq_some {p : Path} {blob : BlobId} (h : mergedEntry base ours theirs p = some blob) :
    ours.get? p = some blob ∨ theirs.get? p = some blob := by
  unfold mergedEntry at h
  split at h
  · exact Or.inl h
  · exact Or.inr h

/-! ## Changed paths -/

theorem mem_changedPaths {a b : Tree} {p : Path} : p ∈ changedPaths a b ↔ a.get? p ≠ b.get? p := by
  simp only [changedPaths, List.mem_filter, mem_ascendingKeys, List.mem_append, Table.mem_keys, bne_iff_ne,
    and_iff_right_iff_imp]
  intro hne
  by_contra hnone
  simp only [not_or, not_exists, ← Option.eq_none_iff_forall_ne_some] at hnone
  exact hne (hnone.1.trans hnone.2.symm)

end RepoTutor.Repo
