/-
Cutting and joining texts, as the operations on lists that they are.

Cutting characters at a test is `List.splitOnP`, joining texts is `List.intercalate` on their characters. So cutting a text
at a character and joining the pieces gives the text back (`joinWith_splitOn`), and joined texts can be told from the whole
when none of them is empty or holds the separator (`joinWith_inj`).
-/
import RepoTutor.Text.Basic

namespace RepoTutor.Text

theorem splitChars_eq_splitOnP (p : Char → Bool) (cs : List Char) : splitChars p cs = cs.splitOnP p := by
  induction cs with
  | nil => rfl
  | cons c cs ih =>
    rw [splitChars, List.splitOnP_cons_eq_if_modifyHead, ih]
    split
    · rfl
    · cases hpieces : cs.splitOnP p with
      | nil => exact absurd hpieces (List.splitOnP_ne_nil p cs)
      | cons piece pieces => rfl

theorem toList_joinWith (sep : String) (l : List String) :
    (joinWith sep l).toList = sep.toList.intercalate (l.map String.toList) := by
  induction l with
  | nil => rfl
  | cons s l ih =>
    cases l with
    | nil => simp [joinWith]
    | cons s' l => simp [joinWith, ih]

theorem map_toList_splitOn (sep : Char) (s : String) : (splitOn sep s).map String.toList = s.toList.splitOn sep := by
  rw [splitOn, splitChars_eq_splitOnP, List.map_map]
  exact (List.map_congr_left (fun cs _ => String.toList_ofList)).trans (List.map_id _)

theorem splitOn_ne_nil (sep : Char) (s : String) : splitOn sep s ≠ [] := by
  simp [splitOn, splitChars_eq_splitOnP]

/-- cutting loses nothing -/
theorem joinWith_splitOn (sep : Char) (s : String) : joinWith (String.ofList [sep]) (splitOn sep s) = s := by
  refine String.toList_inj.1 ?_
  rw [toList_joinWith, map_toList_splitOn, String.toList_ofList, List.intercalate_splitOn]

/-- the last of joined texts can be told -/
theorem joinWith_concat_inj {sep : String} (l : List String) {a b : String}
    (h : joinWith sep (l ++ [a]) = joinWith sep (l ++ [b])) : a = b := by
  induction l with
  | nil => exact h
  | cons s l ih =>
    apply ih
    have hcons : ∀ c, joinWith sep (s :: (l ++ [c])) = s ++ sep ++ joinWith sep (l ++ [c]) := by
      intro c
      cases l <;> rfl
    rw [List.cons_append, List.cons_append, hcons, hcons] at h
    exact (String.append_right_inj _).1 h

/-- texts without the separator are what the joined text is cut into; nothing is cut into one empty piece -/
theorem splitOn_toList_joinWith {sep : Char} {l : List String} (h : ∀ s ∈ l, sep ∉ s.toList) :
    (joinWith (String.ofList [sep]) l).toList.splitOn sep = if l = [] then [[]] else l.map String.toList := by
  rw [toList_joinWith, String.toList_ofList]
  split
  · rename_i hnil
    subst hnil
    rfl
  · rename_i hne
    refine List.splitOn_intercalate sep (fun cs hcs => ?_) (by simpa using hne)
    obtain ⟨s, hs, rfl⟩ := List.mem_map.1 hcs
    exact h s hs

/-- **Joined texts are told from the whole** when none is empty or holds the separator. -/
theorem joinWith_inj {sep : Char} {l l' : List String} (h : ∀ s ∈ l, sep ∉ s.toList ∧ s ≠ "")
    (h' : ∀ s ∈ l', sep ∉ s.toList ∧ s ≠ "")
    (heq : joinWith (String.ofList [sep]) l = joinWith (String.ofList [sep]) l') : l = l' := by
  have hcut := congrArg (fun s => s.toList.splitOn sep) heq
  simp only [splitOn_toList_joinWith (fun s hs => (h s hs).1), splitOn_toList_joinWith (fun s hs => (h' s hs).1)] at hcut
  -- one empty piece is none of the texts
  have hempty : ∀ {l : List String}, (∀ s ∈ l, sep ∉ s.toList ∧ s ≠ "") → l.map String.toList ≠ [[]] := by
    intro l hl heq
    have hmem : [] ∈ l.map String.toList := by
      rw [heq]
      exact List.mem_singleton_self _
    obtain ⟨s, hs, hnil⟩ := List.mem_map.1 hmem
    exact (hl s hs).2 (String.toList_eq_nil_iff.1 hnil)
  split at hcut
  · rename_i hnil
    split at hcut
    · rename_i hnil'
      rw [hnil, hnil']
    · exact absurd hcut.symm (hempty h')
  · split at hcut
    · exact absurd hcut (hempty h)
    · exact (List.map_inj_right (fun _ _ => String.toList_inj.1)).1 hcut

end RepoTutor.Text
