/-
Words that are written on a line and read again.

A written word is followed by a blank or by the end of the line. Up to there the reader comes through its plain characters
(`scanWords_plain`) or through its quotation, whose escapes are undone one by one (`scanWords_escaped`), so it reads back
exactly the word (`scanWords_quoteWord`). A written line begins and ends with a character of a word, hence trimming leaves
it alone (`trim_joinWords`). So a joined line means the words that were joined (`joined_words_are_read_back`).
-/
import RepoTutor.Command.Parser

namespace RepoTutor.Command

/-! ## Steps of the reader -/

section Steps

variable {c : Char} (p : Pending) (rest : List Char)

theorem scanWords_plainChar (h : isSpecial c = false) :
    scanWords .bare p (c :: rest) = scanWords .bare (p.push c) rest := by
  simp only [isSpecial, Bool.or_eq_false_iff, beq_eq_false_iff_ne] at h
  rw [scanWords.eq_def]
  simp [h]

theorem scanWords_blank : scanWords .bare p (' ' :: rest) = (scanWords .bare none rest).map p.flush := by
  have hblank : Text.isBlank ' ' = true := by decide
  rw [scanWords.eq_def]
  simp [hblank]

theorem scanWords_opening : scanWords .bare p ('"' :: rest) = scanWords .double p.opened rest := by
  rw [scanWords.eq_def]
  simp

theorem scanWords_closing : scanWords .double p ('"' :: rest) = scanWords .bare p rest := by
  rw [scanWords.eq_def]
  simp

theorem scanWords_quotedChar : scanWords .double p (escapeQuoted c ++ rest) = scanWords .double (p.push c) rest := by
  unfold escapeQuoted
  split
  · rename_i hescaped
    rw [scanWords.eq_def]
    simp [hescaped]
  · rename_i hplain
    rw [not_or] at hplain
    rw [scanWords.eq_def]
    simp [hplain]

end Steps

/-! ## One word -/

/-- a written word ends before these characters -/
def Ends (rest : List Char) : Prop := rest = [] ∨ ∃ rest', rest = ' ' :: rest'

theorem Pending.flush_reverse (cs : List Char) : Pending.flush (some cs.reverse) = (cs :: ·) := by
  funext finished
  rw [flush, List.reverse_reverse]

/-- a word is finished where it ends -/
theorem scanWords_of_ends {rest : List Char} (h : Ends rest) (p : Pending) :
    scanWords .bare p rest = (scanWords .bare none rest).map p.flush := by
  rcases h with rfl | ⟨rest, rfl⟩
  · rfl
  · rw [scanWords_blank, scanWords_blank, Option.map_map]
    rfl

theorem scanWords_overwrite {rest : List Char} (h : Ends rest) :
    scanWords .bare none ('>' :: rest) = (scanWords .bare none rest).map (['>'] :: ·) := by
  rcases h with rfl | ⟨rest, rfl⟩
  · rfl
  · rw [scanWords.eq_def]
    simp [Pending.flush]

theorem scanWords_extend (rest : List Char) :
    scanWords .bare none ('>' :: '>' :: rest) = (scanWords .bare none rest).map (['>', '>'] :: ·) := by
  rw [scanWords.eq_def]
  simp [Pending.flush]

/-- the reader comes through characters without a meaning of their own -/
theorem scanWords_plain {cs : List Char} (h : ∀ c ∈ cs, isSpecial c = false) (word rest : List Char) :
    scanWords .bare (some word) (cs ++ rest) = scanWords .bare (some (cs.reverse ++ word)) rest := by
  induction cs generalizing word with
  | nil => rfl
  | cons c cs ih =>
    rw [List.cons_append, scanWords_plainChar _ _ (h c List.mem_cons_self), Pending.push, Option.getD_some,
      ih (fun d hd => h d (List.mem_cons_of_mem c hd)), List.reverse_cons, List.append_assoc, List.singleton_append]

/-- inside double quotes the reader undoes every escape -/
theorem scanWords_escaped (cs word rest : List Char) :
    scanWords .double (some word) (cs.flatMap escapeQuoted ++ '"' :: rest) =
      scanWords .bare (some (cs.reverse ++ word)) rest := by
  induction cs generalizing word with
  | nil => exact scanWords_closing _ _
  | cons c cs ih =>
    rw [List.flatMap_cons, List.append_assoc, scanWords_quotedChar, Pending.push, Option.getD_some, ih,
      List.reverse_cons, List.append_assoc, List.singleton_append]

/-- **A written word is read back**, and what follows it is read as if it stood alone -/
theorem scanWords_quoteWord (cs : List Char) {rest : List Char} (h : Ends rest) :
    scanWords .bare none (quoteWord cs ++ rest) = (scanWords .bare none rest).map (cs :: ·) := by
  unfold quoteWord
  split
  · rename_i hplain
    rcases hplain with ⟨hne, hplain⟩ | rfl | rfl
    · have hplain : ∀ c ∈ cs, isSpecial c = false := by simpa using hplain
      obtain ⟨c, cs, rfl⟩ := List.exists_cons_of_ne_nil hne
      rw [List.cons_append, scanWords_plainChar _ _ (hplain c List.mem_cons_self), Pending.push, Option.getD_none,
        scanWords_plain (fun d hd => hplain d (List.mem_cons_of_mem c hd)), ← List.reverse_cons, scanWords_of_ends h,
        Pending.flush_reverse]
    · exact scanWords_overwrite h
    · exact scanWords_extend rest
  · rw [List.cons_append, List.append_assoc, List.singleton_append, scanWords_opening, Pending.opened, Option.getD_none,
      scanWords_escaped, List.append_nil, scanWords_of_ends h, Pending.flush_reverse]

/-- a written word is without blanks or in quotation marks -/
theorem quoteWord_cases (cs : List Char) :
    (quoteWord cs ≠ [] ∧ ∀ c ∈ quoteWord cs, Text.isBlank c = false) ∨ ∃ inner, quoteWord cs = '"' :: (inner ++ ['"']) := by
  have hblank : Text.isBlank '>' = false := by decide
  unfold quoteWord
  split
  · rename_i hplain
    rcases hplain with ⟨hne, hplain⟩ | rfl | rfl
    · refine Or.inl ⟨hne, fun c hc => ?_⟩
      have hplain : ∀ c ∈ cs, isSpecial c = false := by simpa using hplain
      have hspecial := hplain c hc
      simp only [isSpecial, Bool.or_eq_false_iff] at hspecial
      exact hspecial.1.1.1.1
    · exact Or.inl (by simpa using hblank)
    · exact Or.inl (by simpa using hblank)
  · exact Or.inr ⟨_, rfl⟩

/-! ## Lines -/

theorem toList_joinWords_singleton (word : String) : (joinWords [word]).toList = quoteWord word.toList := by
  simp [joinWords, Text.joinWith]

theorem toList_joinWords_cons (word next : String) (words : List String) :
    (joinWords (word :: next :: words)).toList = quoteWord word.toList ++ ' ' :: (joinWords (next :: words)).toList := by
  simp [joinWords, Text.joinWith]

theorem scanWords_joinWords : (words : List String) →
    scanWords .bare none (joinWords words).toList = some (words.map String.toList)
  | [] => rfl
  | [word] => by
    rw [toList_joinWords_singleton, ← List.append_nil (quoteWord _), scanWords_quoteWord _ (Or.inl rfl)]
    rfl
  | word :: next :: words => by
    have hrest := scanWords_joinWords (next :: words)
    rw [toList_joinWords_cons, scanWords_quoteWord _ (Or.inr ⟨_, rfl⟩), scanWords_blank, hrest]
    rfl

/-- there are characters, and the first and the last one are no blanks -/
structure Framed (cs : List Char) : Prop where
  nonempty : cs ≠ []
  head : ∀ c ∈ cs.head?, Text.isBlank c = false
  last : ∀ c ∈ cs.getLast?, Text.isBlank c = false

theorem Framed.append {cs ds : List Char} (h : Framed cs) (h' : Framed ds) (sep : Char) : Framed (cs ++ sep :: ds) where
  nonempty := by simp
  head := by
    obtain ⟨c, cs, rfl⟩ := List.exists_cons_of_ne_nil h.nonempty
    exact h.head
  last := by
    obtain ⟨d, ds, rfl⟩ := List.exists_cons_of_ne_nil h'.nonempty
    have hlast : (cs ++ sep :: d :: ds).getLast? = (d :: ds).getLast? := by
      rw [List.getLast?_append, List.getLast?_cons_cons]
      simp [List.getLast?_cons]
    rw [hlast]
    exact h'.last

theorem framed_quoteWord (cs : List Char) : Framed (quoteWord cs) := by
  rcases quoteWord_cases cs with ⟨hne, hplain⟩ | ⟨inner, hquoted⟩
  · exact ⟨hne, fun c hc => hplain c (List.mem_of_mem_head? hc), fun c hc => hplain c (List.mem_of_mem_getLast? hc)⟩
  · have hquote : Text.isBlank '"' = false := by decide
    rw [hquoted, ← List.cons_append]
    refine ⟨by simp, ?_, ?_⟩
    · simp [hquote]
    · rw [List.getLast?_concat]
      simp [hquote]

theorem framed_joinWords (word : String) : (words : List String) → Framed (joinWords (word :: words)).toList
  | [] => by
    rw [toList_joinWords_singleton]
    exact framed_quoteWord _
  | next :: words => by
    rw [toList_joinWords_cons]
    exact (framed_quoteWord _).append (framed_joinWords next words) ' '

theorem dropWhile_of_head {p : Char → Bool} {cs : List Char} (h : ∀ c ∈ cs.head?, p c = false) : cs.dropWhile p = cs := by
  cases cs with
  | nil => rfl
  | cons c cs => exact List.dropWhile_cons_of_neg (by simp [h c rfl])

theorem Framed.trimChars {cs : List Char} (h : Framed cs) : Text.trimChars cs = cs := by
  rw [Text.trimChars, Text.dropEndWhile, dropWhile_of_head h.head, dropWhile_of_head, List.reverse_reverse]
  rw [List.head?_reverse]
  exact h.last

/-- a written line has no blanks around it -/
theorem trim_joinWords (words : List String) : Text.trim (joinWords words) = joinWords words := by
  cases words with
  | nil => rfl
  | cons word words => rw [Text.trim, (framed_joinWords word words).trimChars, String.ofList_toList]

/-- **Words that are joined to a line are read back from it.** For any words, also empty ones and words with blanks,
quotation marks, backslashes or redirects in them, the line holds exactly these words, as it is and without the blanks
around it, and asks for what the words ask for. -/
theorem joined_words_are_read_back (words : List String) :
    tokenize (joinWords words) = .ok words ∧ tokenize (Text.trim (joinWords words)) = .ok words
      ∧ parse (Text.trim (joinWords words)) = parseWords words := by
  have hread : tokenize (joinWords words) = .ok words := by
    rw [tokenize, scanWords_joinWords]
    simp
  rw [trim_joinWords, parse, hread]
  exact ⟨rfl, rfl, rfl⟩

end RepoTutor.Command
