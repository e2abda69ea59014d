/-
What lies under a path as a directory.

Slashes at the end of a path do not count for the directory that it names; a path lies under it when the directory's name
and a slash begin it (`LiesUnder`). A path specification without patterns selects these paths and the one that it is
itself (`liesAt_iff`). No path is selected by two specifications unless they are equal or one lies under the other
(`eq_or_under_of_atPath`).
-/
import Mathlib.Data.List.DropRight
import RepoTutor.Transition.Apply

namespace RepoTutor.Transition

open Repo

/-- the name of a directory and a slash begin a path -/
def LiesUnder (path dir : Path) : Prop :=
  ∃ name slashes rest, dir.toList = name ++ List.replicate slashes '/' ∧ name.getLast? ≠ some '/'
    ∧ path.toList = name ++ '/' :: rest

theorem rdropWhile_name {name : List Char} (hname : name.getLast? ≠ some '/') (slashes : Nat) :
    (name ++ List.replicate slashes '/').rdropWhile (· == '/') = name := by
  induction slashes with
  | zero =>
    rw [List.replicate_zero, List.append_nil, List.rdropWhile_eq_self_iff]
    intro hne
    rw [List.getLast?_eq_some_getLast hne] at hname
    simpa using hname
  | succ n ih => rw [List.replicate_succ', ← List.append_assoc, List.rdropWhile_concat_pos _ _ _ (by simp), ih]

theorem directoryOf_eq {dir : Path} {name : List Char} {slashes : Nat}
    (hdir : dir.toList = name ++ List.replicate slashes '/') (hname : name.getLast? ≠ some '/') :
    directoryOf dir = name ++ ['/'] :=
  congrArg (· ++ ['/']) ((congrArg _ hdir).trans (rdropWhile_name hname slashes))

/-- every path is a name and slashes after it -/
theorem exists_directory_name (dir : Path) :
    ∃ name slashes, dir.toList = name ++ List.replicate slashes '/' ∧ name.getLast? ≠ some '/' := by
  refine ⟨dir.toList.rdropWhile (· == '/'), (dir.toList.rtakeWhile (· == '/')).length, ?_, fun hlast => ?_⟩
  · rw [← List.eq_replicate_iff.2 ⟨rfl, fun c hc => by simpa using List.mem_rtakeWhile_imp hc⟩,
      List.rdropWhile_append_rtakeWhile]
  · have hne : dir.toList.rdropWhile (· == '/') ≠ [] := by
      intro hnil
      rw [hnil] at hlast
      cases hlast
    rw [List.getLast?_eq_some_getLast hne, Option.some.injEq] at hlast
    exact List.rdropWhile_last_not _ _ hne (by simp [hlast])

theorem liesUnder_iff {path dir : Path} : LiesUnder path dir ↔ directoryOf dir <+: path.toList := by
  constructor
  · rintro ⟨name, slashes, rest, hdir, hname, hpath⟩
    rw [directoryOf_eq hdir hname, hpath]
    exact ⟨rest, by simp⟩
  · rintro ⟨rest, hpath⟩
    obtain ⟨name, slashes, hdir, hname⟩ := exists_directory_name dir
    rw [directoryOf_eq hdir hname] at hpath
    exact ⟨name, slashes, rest, hdir, hname, by rw [← hpath]; simp⟩

/-- a path itself, or one that lies under it -/
def AtPath (dir path : Path) : Prop := path = dir ∨ LiesUnder path dir

theorem liesAt_iff {spec : String} {path : Path} : liesAt spec path = true ↔ AtPath spec path := by
  rw [liesAt, Bool.or_eq_true, beq_iff_eq, List.isPrefixOf_iff_prefix, AtPath, liesUnder_iff]

/-- where the directories of two paths begin alike, one path lies under the other, or they are equal -/
theorem eq_or_under_of_directories {p q : Path} (h : directoryOf p <+: directoryOf q) : p = q ∨ LiesUnder p q ∨ LiesUnder q p := by
  obtain ⟨name, slashes, hp, hname⟩ := exists_directory_name p
  obtain ⟨name', slashes', hq, hname'⟩ := exists_directory_name q
  rw [directoryOf_eq hp hname, directoryOf_eq hq hname', List.prefix_concat_iff] at h
  rcases h with h | ⟨rest, h⟩
  · -- the same directory, told with different numbers of slashes
    obtain rfl : name = name' := List.append_cancel_right h
    cases slashes with
    | succ n => exact Or.inr (Or.inl ⟨name, slashes', List.replicate n '/', hq, hname, hp⟩)
    | zero =>
      cases slashes' with
      | succ n => exact Or.inr (Or.inr ⟨name, 0, List.replicate n '/', hp, hname, hq⟩)
      | zero => exact Or.inl (String.toList_inj.1 (hp.trans hq.symm))
  · refine Or.inr (Or.inr ⟨name, slashes, rest ++ List.replicate slashes' '/', hp, hname, ?_⟩)
    rw [hq, ← h]
    simp

/-- **What is at two paths at once tells that one lies under the other,** or that they are the same. -/
theorem eq_or_under_of_atPath {p q x : Path} (hp : AtPath p x) (hq : AtPath q x) :
    p = q ∨ LiesUnder p q ∨ LiesUnder q p := by
  rcases hp with rfl | hp
  · exact hq.imp_right Or.inl
  · rcases hq with rfl | hq
    · exact Or.inr (Or.inr hp)
    · rcases List.prefix_or_prefix_of_prefix (liesUnder_iff.1 hp) (liesUnder_iff.1 hq) with h | h
      · exact eq_or_under_of_directories h
      · exact (eq_or_under_of_directories h).imp Eq.symm Or.symm

end RepoTutor.Transition
