/-
Which file a path of a line means.

A path is cut into segments, and the names among them lead to the file (`names`); `.` stays where it is. Reading a path
drops the `./` at its front and nothing else (`normalizePath_segments`), and refuses empty segments and `..`. So a path
is in normal form, and is the only such path of its file, exactly when no `.` follows a name and there is a name at all
(`parsed_path_isNormal_iff`).
-/
import Mathlib.Data.List.Basic
import RepoTutor.Proofs.Command.Vetting
import RepoTutor.Proofs.Text.Splitting

namespace RepoTutor.Command

/-! ## Segments -/

/-- no segment is empty, `.` or `..` -/
def IsNormal (path : String) : Prop := ∀ seg ∈ Text.splitOn '/' path, seg ≠ "" ∧ seg ≠ "." ∧ seg ≠ ".."

instance (path : String) : Decidable (IsNormal path) := by unfold IsNormal; infer_instance

/-- the segments that lead to the file -/
def names (path : String) : List String := (Text.splitOn '/' path).filter (· ≠ ".")

theorem joinWith_splitOn (path : String) : Text.joinWith "/" (Text.splitOn '/' path) = path :=
  Text.joinWith_splitOn '/' path

theorem names_of_isNormal {path : String} (h : IsNormal path) : names path = Text.splitOn '/' path :=
  List.filter_eq_self.2 (fun seg hseg => by simpa using (h seg hseg).2.1)

/-! ## Reading a path -/

/-- leading `./` are segments in front -/
theorem splitChars_dropHere (cs : List Char) :
    ∃ n, Text.splitChars (· == '/') cs = List.replicate n ['.'] ++ Text.splitChars (· == '/') (dropHere cs) := by
  fun_induction dropHere cs with
  | case1 rest ih =>
    obtain ⟨n, hn⟩ := ih
    exact ⟨n + 1, by simp [Text.splitChars, hn, List.replicate_succ]⟩
  | case2 cs => exact ⟨0, rfl⟩

/-- without them, a path that begins with `.` is just that -/
theorem splitChars_dropHere_head (cs : List Char) {segs : List (List Char)}
    (h : Text.splitChars (· == '/') (dropHere cs) = ['.'] :: segs) : segs = [] := by
  fun_induction dropHere cs with
  | case1 rest ih => exact ih h
  | case2 cs hcs =>
    cases segs with
    | nil => rfl
    | cons seg segs =>
      have hwhole : ['/'].intercalate (cs.splitOn '/') = cs := List.intercalate_splitOn '/'
      rw [List.splitOn_eq_splitOnP, ← Text.splitChars_eq_splitOnP, h] at hwhole
      exact absurd hwhole.symm (by simpa using hcs _)

/-- a path that is read is its word without leading `./`, and it has neither empty segments nor `..` -/
theorem normalizePath_segments {command word path : String} (h : normalizePath command word = .ok path) :
    (∃ n, Text.splitOn '/' word = List.replicate n "." ++ Text.splitOn '/' path)
      ∧ (∀ segs, Text.splitOn '/' path = "." :: segs → segs = [])
      ∧ ∀ seg ∈ Text.splitOn '/' path, seg ≠ "" ∧ seg ≠ ".." := by
  unfold normalizePath at h
  dsimp only at h
  split at h
  · cases h
  · split at h
    · cases h
    · rename_i hsegs
      cases h
      unfold Text.splitOn
      rw [String.toList_ofList]
      refine ⟨?_, fun segs hhead => ?_, fun seg hseg => ?_⟩
      · obtain ⟨n, hn⟩ := splitChars_dropHere word.toList
        exact ⟨n, by rw [hn, List.map_append, List.map_replicate]⟩
      · obtain ⟨seg, segs', hsplit, hseg, rfl⟩ := List.map_eq_cons_iff.1 hhead
        obtain rfl : seg = ['.'] := String.ofList_injective hseg
        rw [splitChars_dropHere_head word.toList hsplit, List.map_nil]
      · obtain ⟨cs, hcs, rfl⟩ := List.mem_map.1 hseg
        simp only [List.any_eq_true, Bool.or_eq_true, decide_eq_true_eq, List.isEmpty_iff, not_exists, not_and,
          not_or] at hsegs
        obtain ⟨hup, hnonempty⟩ := hsegs cs hcs
        exact ⟨fun h => hnonempty (String.ofList_injective h), fun h => hup (String.ofList_injective h)⟩

/-- where a path that is read is in normal form -/
theorem isNormal_iff_of_normalizePath {command word path : String} (h : normalizePath command word = .ok path) :
    IsNormal path ↔ names word ≠ [] ∧ "." ∉ (Text.splitOn '/' word).dropWhile (· = ".") := by
  obtain ⟨⟨n, hword⟩, hfront, hsegs⟩ := normalizePath_segments h
  obtain ⟨first, rest, hpath⟩ := List.exists_cons_of_ne_nil (Text.splitOn_ne_nil '/' path)
  have hnormal : IsNormal path ↔ "." ∉ first :: rest := by
    rw [← hpath]
    refine ⟨fun h hdot => (h "." hdot).2.1 rfl, fun h seg hseg => ⟨(hsegs seg hseg).1, ?_, (hsegs seg hseg).2⟩⟩
    rintro rfl
    exact h hseg
  rw [hnormal, names, hword, hpath]
  by_cases hfirst : first = "."
  · subst hfirst
    obtain rfl := hfront rest hpath
    simp
  · have hdrop : (List.replicate n "." ++ first :: rest).dropWhile (· = ".") = first :: rest := by
      rw [List.dropWhile_append_of_pos (by simp), List.dropWhile_cons_of_neg (by simpa using hfirst)]
    rw [hdrop]
    simp [hfirst]

/-- **What the paths of a line are.** Every path or path specification that a line asks for is a word of the line without
its leading `./`. None of its segments is empty or `..`, but a `.` that follows a name is kept: the path is in normal form
exactly when its word has a name and no `.` after the first one. Then it is the names themselves, so all words of this
kind that lead to one file give one path. -/
theorem parsed_path_isNormal_iff {line : String} {op : Operation} (h : parse line = .ok op) :
    ∃ words, tokenize line = .ok words ∧ ∀ path ∈ op.paths, ∃ word ∈ words,
      (∃ n, Text.splitOn '/' word = List.replicate n "." ++ Text.splitOn '/' path)
      ∧ (∀ seg ∈ Text.splitOn '/' path, seg ≠ "" ∧ seg ≠ "..")
      ∧ (IsNormal path ↔ names word ≠ [] ∧ "." ∉ (Text.splitOn '/' word).dropWhile (· = "."))
      ∧ (IsNormal path → path = Text.joinWith "/" (names word)) := by
  obtain ⟨words, hwords, hvetted⟩ := parse_vetted h
  refine ⟨words, hwords, fun path hpath => ?_⟩
  obtain ⟨word, hword, command, hread⟩ := hvetted.paths path hpath
  obtain ⟨⟨n, hfront⟩, -, hsegs⟩ := normalizePath_segments hread
  refine ⟨word, hword, ⟨n, hfront⟩, hsegs, isNormal_iff_of_normalizePath hread, fun hnormal => ?_⟩
  have hnames : names word = Text.splitOn '/' path := by
    rw [← names_of_isNormal hnormal, names, hfront]
    simp [names]
  rw [hnames, joinWith_splitOn]

/-- a path of the file `a/b` that is not read as `a/b` -/
theorem inner_dot_is_kept :
    parse "touch a/./b" = .ok (.touch ["a/./b"]) ∧ names "a/./b" = names "a/b" ∧ ¬IsNormal "a/./b" := by
  have h : parse "touch a/./b" = .ok (.touch ["a/./b"]) := by decide +kernel
  obtain ⟨words, hwords, hpaths⟩ := parsed_path_isNormal_iff h
  have hline : tokenize "touch a/./b" = .ok ["touch", "a/./b"] := by decide +kernel
  obtain rfl : ["touch", "a/./b"] = words := Except.ok.inj (hline.symm.trans hwords)
  obtain ⟨word, hword, ⟨n, hfront⟩, -, hiff, -⟩ := hpaths "a/./b" List.mem_cons_self
  obtain rfl | rfl : word = "touch" ∨ word = "a/./b" := by simpa using hword
  · have hlength := congrArg List.length hfront
    have hone : (Text.splitOn '/' "touch").length = 1 := by decide
    have hthree : (Text.splitOn '/' "a/./b").length = 3 := by decide
    rw [List.length_append, hone, hthree] at hlength
    omega
  · exact ⟨h, by decide, fun hnormal => (hiff.1 hnormal).2 (by decide)⟩

end RepoTutor.Command
