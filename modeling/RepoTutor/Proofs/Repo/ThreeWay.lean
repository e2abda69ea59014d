/-
The outcome of a three-way merge, and that it does not matter which side is ours.

A path conflicts when the sides differ on it and each of them differs from the base; absence counts as a content
(`Conflicts`). The merge is refused with exactly the conflicting paths in ascending order if there are any, and otherwise
every path holds the content of the side that changed it (`three_way_merge`). Neither depends on the order of the sides,
although the merge asks about our side first: where both sides changed a path alike, both hold what is taken.
-/
import Mathlib.Tactic.SplitIfs
import RepoTutor.Proofs.Repo.TreeMerge

namespace RepoTutor.Repo

/-- both sides changed the path, and differently -/
def Conflicts (base ours theirs : Tree) (p : Path) : Prop :=
  ours.get? p ≠ theirs.get? p ∧ ours.get? p ≠ base.get? p ∧ theirs.get? p ≠ base.get? p

instance (base ours theirs : Tree) (p : Path) : Decidable (Conflicts base ours theirs p) :=
  inferInstanceAs (Decidable (_ ∧ _ ∧ _))

/-- the merge holds what the side has that changed the path -/
def TakesChanges (base ours theirs merged : Tree) : Prop :=
  ∀ p, merged.get? p = if ours.get? p = base.get? p then theirs.get? p else ours.get? p

variable {base ours theirs : Tree} {p : Path}

theorem Conflicts.swap (h : Conflicts base ours theirs p) : Conflicts base theirs ours p :=
  ⟨h.1.symm, h.2.2, h.2.1⟩

theorem conflicts_comm : Conflicts base ours theirs p ↔ Conflicts base theirs ours p :=
  ⟨Conflicts.swap, Conflicts.swap⟩

theorem isConflicting_iff_conflicts : isConflicting base ours theirs p = true ↔ Conflicts base ours theirs p := by
  rw [isConflicting_iff, Conflicts, and_comm (a := theirs.get? p ≠ base.get? p)]

theorem isConflicting_eq_false_iff : isConflicting base ours theirs p = false ↔ ¬Conflicts base ours theirs p := by
  rw [← isConflicting_iff_conflicts, Bool.not_eq_true]

/-! ## Without conflicts -/

/-- what is merged is the change of the one side that made one -/
theorem mergedEntry_eq (h : ¬Conflicts base ours theirs p) :
    mergedEntry base ours theirs p = if ours.get? p = base.get? p then theirs.get? p else ours.get? p := by
  unfold mergedEntry
  by_cases hours : ours.get? p = base.get? p
  · rw [if_pos hours, hours]
    split
    · rename_i hkeep
      exact hkeep.elim id Eq.symm
    · rfl
  · rw [if_neg hours, if_pos]
    -- our side changed the path, so theirs did not or changed it alike
    by_contra hboth
    rw [not_or] at hboth
    exact h ⟨hboth.1, hours, hboth.2⟩

/-- a path that neither side or both sides changed reads the same from either side -/
theorem takesChanges_comm (h : ∀ p, ¬Conflicts base ours theirs p) {merged : Tree} :
    TakesChanges base ours theirs merged ↔ TakesChanges base theirs ours merged := by
  refine forall_congr' (fun p => ?_)
  have hsame : (if ours.get? p = base.get? p then theirs.get? p else ours.get? p)
      = if theirs.get? p = base.get? p then ours.get? p else theirs.get? p := by
    by_cases hours : ours.get? p = base.get? p
    · by_cases htheirs : theirs.get? p = base.get? p
      · rw [if_pos hours, if_pos htheirs, hours, htheirs]
      · rw [if_pos hours, if_neg htheirs]
    · by_cases htheirs : theirs.get? p = base.get? p
      · rw [if_neg hours, if_pos htheirs]
      · rw [if_neg hours, if_neg htheirs]
        by_contra hne
        exact h p ⟨hne, hours, htheirs⟩
  rw [hsame]

theorem mergeTrees_eq_ok_iff {merged : Tree} :
    mergeTrees base ours theirs = .ok merged ↔
      (∀ p, ¬Conflicts base ours theirs p) ∧ TakesChanges base ours theirs merged := by
  rw [mergeTrees_eq_ok]
  simp only [isConflicting_eq_false_iff]
  refine and_congr_right (fun h => forall_congr' (fun p => ?_))
  rw [mergedEntry_eq (h p)]

/-! ## With conflicts -/

theorem mem_conflicting :
    p ∈ (Table.ofKeys (base.keys ++ ours.keys ++ theirs.keys)).keys.filter (isConflicting base ours theirs) ↔
      Conflicts base ours theirs p := by
  rw [List.mem_filter, isConflicting_iff_conflicts, and_iff_right_iff_imp]
  intro h
  refine mem_mergePaths.2 (Or.inr ?_)
  -- what differs between the sides is held by one of them
  by_contra hnone
  simp only [not_or, not_not] at hnone
  exact h.1 (hnone.1.trans hnone.2.symm)

theorem mergeTrees_eq_error_iff {paths : List Path} :
    mergeTrees base ours theirs = .error paths ↔
      paths ≠ [] ∧ paths.Pairwise (· < ·) ∧ ∀ p, p ∈ paths ↔ Conflicts base ours theirs p := by
  have hascending := (Table.ofKeys (base.keys ++ ours.keys ++ theirs.keys)).pairwise_keys.filter
    (isConflicting base ours theirs)
  constructor
  · intro h
    unfold mergeTrees at h
    dsimp only at h
    split at h
    · cases h
    · rename_i hne
      cases h
      exact ⟨hne, hascending, fun p => mem_conflicting⟩
  · rintro ⟨hne, hpaths, hmem⟩
    have hsame := eq_of_ascending hpaths hascending (fun p => (hmem p).trans mem_conflicting.symm)
    unfold mergeTrees
    dsimp only
    rw [← hsame]
    cases paths with
    | nil => exact absurd rfl hne
    | cons p paths => rfl

/-! ## The outcome -/

/-- the sides may be exchanged, since neither of the two outcomes tells them apart -/
theorem mergeTrees_comm (base ours theirs : Tree) : mergeTrees base ours theirs = mergeTrees base theirs ours := by
  cases h : mergeTrees base ours theirs with
  | ok merged =>
    obtain ⟨hnone, hmerged⟩ := mergeTrees_eq_ok_iff.1 h
    have hnone' : ∀ p, ¬Conflicts base theirs ours p := fun p hp => hnone p hp.swap
    exact (mergeTrees_eq_ok_iff.2 ⟨hnone', (takesChanges_comm hnone).1 hmerged⟩).symm
  | error paths =>
    obtain ⟨hne, hascending, hpaths⟩ := mergeTrees_eq_error_iff.1 h
    exact (mergeTrees_eq_error_iff.2 ⟨hne, hascending, fun p => (hpaths p).trans conflicts_comm⟩).symm

/-- **The outcome of a merge.** Without a conflicting path there is a merged tree, which holds their content where ours is
the base's and our content everywhere else; otherwise the merge is refused with exactly the conflicting paths in strictly
ascending order. It is the same outcome when the sides are exchanged. -/
theorem three_way_merge (base ours theirs : Tree) :
    ((∀ p, ¬Conflicts base ours theirs p) →
        ∃ merged, mergeTrees base ours theirs = .ok merged
          ∧ ∀ p, merged.get? p = if ours.get? p = base.get? p then theirs.get? p else ours.get? p)
      ∧ ((∃ p, Conflicts base ours theirs p) →
        ∃ paths, mergeTrees base ours theirs = .error paths ∧ paths.Pairwise (· < ·)
          ∧ ∀ p, p ∈ paths ↔ Conflicts base ours theirs p)
      ∧ mergeTrees base ours theirs = mergeTrees base theirs ours := by
  refine ⟨fun hnone => ?_, fun hsome => ?_, mergeTrees_comm base ours theirs⟩
  · obtain ⟨merged, hmerged⟩ := mergeTrees_of_noConflict (fun p => isConflicting_eq_false_iff.2 (hnone p))
    exact ⟨merged, hmerged, (mergeTrees_eq_ok_iff.1 hmerged).2⟩
  · cases h : mergeTrees base ours theirs with
    | ok merged =>
      obtain ⟨p, hp⟩ := hsome
      exact absurd hp ((mergeTrees_eq_ok_iff.1 h).1 p)
    | error paths =>
      obtain ⟨-, hascending, hpaths⟩ := mergeTrees_eq_error_iff.1 h
      exact ⟨paths, rfl, hascending, hpaths⟩

/-- an edit on each side, an addition and a deletion are merged; where both sides edited `a` and they deleted what was
edited as `b`, these two paths are reported -/
theorem one_sided_changes_are_merged :
    let base : Tree := .ofList [("a", "1"), ("b", "1"), ("gone", "1")]
    let ours : Tree := .ofList [("a", "2"), ("b", "1"), ("gone", "1")]
    let theirs : Tree := .ofList [("a", "1"), ("b", "3"), ("new", "1")]
    let rival : Tree := .ofList [("a", "3"), ("c", "1"), ("gone", "1")]
    let edited : Tree := .ofList [("a", "2"), ("b", "2"), ("gone", "1")]
    (∀ p, ¬Conflicts base ours theirs p) ∧ Conflicts base edited rival "a"
      ∧ (∃ merged, mergeTrees base ours theirs = .ok merged ∧ merged.get? "a" = some "2" ∧ merged.get? "b" = some "3"
        ∧ merged.get? "gone" = none ∧ merged.get? "new" = some "1")
      ∧ ∃ paths, mergeTrees base edited rival = .error paths ∧ "a" ∈ paths ∧ "b" ∈ paths ∧ "c" ∉ paths := by
  intro base ours theirs rival edited
  have hnone : ∀ p, ¬Conflicts base ours theirs p := by
    intro p
    simp only [Conflicts, base, ours, theirs, Table.ofList, Table.insertAll, List.foldl_cons, List.foldl_nil,
      Table.get?_insert, Table.get?_empty]
    split_ifs <;> simp
  have hsome : Conflicts base edited rival "a" := by decide
  refine ⟨hnone, hsome, ?_, ?_⟩
  · obtain ⟨merged, hmerged, hholds⟩ := (three_way_merge base ours theirs).1 hnone
    refine ⟨merged, hmerged, ?_, ?_, ?_, ?_⟩
    all_goals
      rw [hholds]
      decide
  · obtain ⟨paths, hpaths, -, hmem⟩ := (three_way_merge base edited rival).2.1 ⟨"a", hsome⟩
    refine ⟨paths, hpaths, (hmem "a").2 hsome, (hmem "b").2 (by decide), ?_⟩
    rw [hmem]
    decide

end RepoTutor.Repo
