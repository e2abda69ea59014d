/-
Files next to each other.

A path is looked up by its one spelling. Two names in one directory, none of them a path by itself, have different
spellings whatever the directory is called (`plainPath_joinPath_inj`). So writing one of them leaves the other as it is
(`FileTree.read?_write_of_ne`, `FileTree.read?_touch_of_ne`).
-/
import RepoTutor.Proofs.Data.Membership
import RepoTutor.Proofs.Text.Splitting
import RepoTutor.Workspace.Files
import RepoTutor.Workspace.Paths

namespace RepoTutor.Workspace

/-! ## Segments -/

/-- a name that is no path by itself -/
def IsName (name : String) : Prop := '/' ∉ name.toList ∧ name ≠ "" ∧ name ≠ "." ∧ name ≠ ".."

instance (name : String) : Decidable (IsName name) := inferInstanceAs (Decidable (_ ∧ _))

/-- a name below a directory is the directory's last segment -/
theorem segments_name {name : String} (h : IsName name) (directory : String) :
    segments (directory ++ "/" ++ name) = segments directory ++ [name] := by
  obtain ⟨hslash, hempty, hhere, hup⟩ := h
  have hsplit : Text.splitOn '/' (directory ++ "/" ++ name) = Text.splitOn '/' directory ++ [name] := by
    refine (List.map_inj_right (fun _ _ => String.toList_inj.1)).1 ?_
    rw [List.map_append, Text.map_toList_splitOn, Text.map_toList_splitOn]
    simp [List.splitOn_append_cons_self, List.splitOn_eq_singleton hslash]
  simp [segments, hsplit, hempty, hhere, hup]

/-- a directory's names stand after one slash -/
theorem joinPath_eq (directory : String) :
    ∃ front, ∀ name, IsName name → joinPath directory name = front ++ "/" ++ name := by
  have hrelative : ∀ name, IsName name → joinPath directory name
      = if Text.endsWith ['/'] directory.toList then directory ++ name else directory ++ "/" ++ name := by
    intro name hname
    unfold joinPath
    split
    · rename_i rest hpath
      exact absurd (hpath ▸ List.mem_cons_self) hname.1
    · rfl
  by_cases hslash : Text.endsWith ['/'] directory.toList = true
  · obtain ⟨front, hfront⟩ := List.isSuffixOf_iff_suffix.1 hslash
    have hdirectory : directory = String.ofList front ++ "/" := by
      rw [← String.toList_inj, String.toList_append, String.toList_ofList]
      exact hfront.symm
    refine ⟨String.ofList front, fun name hname => ?_⟩
    rw [hrelative name hname, if_pos hslash, ← hdirectory]
  · refine ⟨directory, fun name hname => ?_⟩
    rw [hrelative name hname, if_neg hslash]

/-- **Names in one directory have different spellings.** -/
theorem plainPath_joinPath_inj {directory a b : String} (ha : IsName a) (hb : IsName b)
    (h : plainPath (joinPath directory a) = plainPath (joinPath directory b)) : a = b := by
  obtain ⟨front, hfront⟩ := joinPath_eq directory
  have hplain : ∀ name, IsName name → plainPath (joinPath directory name)
      = (if (front ++ "/").toList.head? == some '/' then "/" else "")
        ++ Text.joinWith "/" (segments front ++ [name]) := by
    intro name hname
    have hhead : (front ++ "/" ++ name).toList.head? = (front ++ "/").toList.head? := by
      rw [String.toList_append]
      cases hchars : (front ++ "/").toList with
      | nil => simp at hchars
      | cons c cs => rfl
    rw [plainPath, hfront name hname, segments_name hname, hhead]
  rw [hplain a ha, hplain b hb] at h
  exact Text.joinWith_concat_inj _ ((String.append_right_inj _).1 h)

/-! ## Writing -/

namespace FileTree

theorem read?_write (t : FileTree) (path text : String) : (t.write path text).read? path = some text := by
  simp [read?, write]

theorem read?_write_of_ne {path other : String} (h : plainPath path ≠ plainPath other) (t : FileTree) (text : String) :
    (t.write path text).read? other = t.read? other := by
  simp [read?, write, h]

theorem read?_touch_of_ne {path other : String} (h : plainPath path ≠ plainPath other) (t : FileTree) :
    (t.touch path).read? other = t.read? other := by
  unfold touch
  split
  · rfl
  · exact read?_write_of_ne h t ""

end FileTree

end RepoTutor.Workspace
