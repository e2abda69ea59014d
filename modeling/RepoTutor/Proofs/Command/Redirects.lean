/-
A text in single quotes, and the redirect that writes it to a file.

Between single quotes the reader of words keeps every character (`scanWords_quoted`), so a quoted text is one word and
exactly the text (`tokenize_echoLine`). But a word does not tell whether it was quoted: a text that is spelled like a
redirect is then taken for one. `quoted_text_is_written_iff` says that these two texts are the only ones that are not
written to the file, and how the line is refused for them.
-/
import RepoTutor.Proofs.Command.Words

namespace RepoTutor.Command

/-- the word that overwrites a file, or appends to it -/
def redirectWord (append : Bool) : String := if append then ">>" else ">"

/-- the line that writes a text in single quotes to a file, or appends it -/
def echoLine (text : String) (append : Bool) (path : String) : String :=
  "echo '" ++ text ++ "' " ++ redirectWord append ++ " " ++ path

/-! ## Single quotes -/

/-- inside single quotes the reader keeps every character -/
theorem scanWords_kept {cs : List Char} (h : '\'' ∉ cs) (word rest : List Char) :
    scanWords .single (some word) (cs ++ '\'' :: rest) = scanWords .bare (some (cs.reverse ++ word)) rest := by
  induction cs generalizing word with
  | nil =>
    rw [List.nil_append, scanWords.eq_def]
    simp
  | cons c cs ih =>
    rw [List.mem_cons, not_or] at h
    have hc : c ≠ '\'' := Ne.symm h.1
    have hstep : scanWords .single (some word) (c :: (cs ++ '\'' :: rest)) =
        scanWords .single (some (c :: word)) (cs ++ '\'' :: rest) := by
      rw [scanWords.eq_def]
      simp [hc, Pending.push]
    rw [List.cons_append, hstep, ih h.2, List.reverse_cons, List.append_assoc, List.singleton_append]

/-- a text in single quotes is read as one word -/
theorem scanWords_quoted {cs : List Char} (h : '\'' ∉ cs) {rest : List Char} (hrest : Ends rest) :
    scanWords .bare none ('\'' :: (cs ++ '\'' :: rest)) = (scanWords .bare none rest).map (cs :: ·) := by
  have hopen : scanWords .bare none ('\'' :: (cs ++ '\'' :: rest)) =
      scanWords .single (some []) (cs ++ '\'' :: rest) := by
    rw [scanWords.eq_def]
    simp [Pending.opened]
  rw [hopen, scanWords_kept h, List.append_nil, scanWords_of_ends hrest, Pending.flush_reverse]

/-! ## Lines -/

theorem quoteWord_plain {cs : List Char} (hne : cs ≠ []) (hplain : ∀ c ∈ cs, isSpecial c = false) : quoteWord cs = cs := by
  have hnone : cs.any isSpecial = false := by simpa using hplain
  rw [quoteWord, if_pos (Or.inl ⟨hne, by simp [hnone]⟩)]

theorem quoteWord_redirectWord (append : Bool) : quoteWord (redirectWord append).toList = (redirectWord append).toList := by
  cases append <;> decide

/-- the line has four words, whatever the text is -/
theorem tokenize_echoLine {text path : String} (htext : '\'' ∉ text.toList)
    (hplain : ∀ c ∈ path.toList, isSpecial c = false) (hpath : path ≠ "") (append : Bool) :
    tokenize (echoLine text append path) = .ok ["echo", text, redirectWord append, path] := by
  have hline : (echoLine text append path).toList =
      quoteWord "echo".toList ++ ' ' :: ('\'' :: (text.toList ++ '\'' ::
        (' ' :: (quoteWord (redirectWord append).toList ++ ' ' :: (quoteWord path.toList ++ []))))) := by
    have hecho : quoteWord "echo".toList = "echo".toList := by decide
    rw [hecho, quoteWord_redirectWord, quoteWord_plain (by simpa using hpath) hplain]
    simp [echoLine]
  have hwords : scanWords .bare none (echoLine text append path).toList =
      some ["echo".toList, text.toList, (redirectWord append).toList, path.toList] := by
    rw [hline, scanWords_quoteWord _ (Or.inr ⟨_, rfl⟩), scanWords_blank, scanWords_quoted htext (Or.inr ⟨_, rfl⟩),
      scanWords_blank, scanWords_quoteWord _ (Or.inr ⟨_, rfl⟩), scanWords_blank, scanWords_quoteWord _ (Or.inl rfl)]
    rfl
  rw [tokenize, hwords]
  simp

/-- a first word that is no redirect is part of the text -/
theorem parseEcho_text {text path : String} (htext : text ≠ ">" ∧ text ≠ ">>") (append : Bool)
    (hpath : normalizePath "echo" path = .ok path) :
    parseEcho [text, redirectWord append, path] = .ok (.writeFile path text append) := by
  have hredirect : redirect? [text, redirectWord append, path] = some ([text], append, [path]) := by
    rw [redirect?, if_neg htext.1, if_neg htext.2]
    cases append <;> rfl
  rw [parseEcho, hredirect]
  simp [hpath, Text.joinWith, bind, Except.bind, pure, Except.pure]

/-- a first word that is spelled like a redirect is one, and the file comes too late -/
theorem parseEcho_redirect {text path : String} (htext : text = ">" ∨ text = ">>") (append : Bool) :
    parseEcho [text, redirectWord append, path] = tooMany "echo" path := by
  rcases htext with rfl | rfl
  · rfl
  · rfl

/-- **Which quoted texts a line writes.** A text in single quotes that is redirected to a file is written to it, or
appended, just as it stands, unless it is spelled `>` or `>>`. These two are taken for the redirect though they are quoted,
and the line is refused for its file. -/
theorem quoted_text_is_written_iff {text path : String} (htext : '\'' ∉ text.toList)
    (hplain : ∀ c ∈ path.toList, isSpecial c = false) (hpath : normalizePath "echo" path = .ok path) (append : Bool) :
    (parse (echoLine text append path) = .ok (.writeFile path text append) ↔ text ≠ ">" ∧ text ≠ ">>")
      ∧ (text = ">" ∨ text = ">>" → parse (echoLine text append path) =
          .error (.invalidArgument "echo" path "unexpected extra argument")) := by
  have hne : path ≠ "" := by
    rintro rfl
    cases hpath
  have hread : parse (echoLine text append path) = parseEcho [text, redirectWord append, path] := by
    rw [parse, tokenize_echoLine htext hplain hne append]
    rfl
  have hrefused : text = ">" ∨ text = ">>" → parse (echoLine text append path) =
      .error (.invalidArgument "echo" path "unexpected extra argument") :=
    fun h => hread.trans (parseEcho_redirect h append)
  refine ⟨⟨fun hwritten => ?_, fun h => hread.trans (parseEcho_text h append hpath)⟩, hrefused⟩
  rw [← not_or]
  intro h
  cases (hrefused h).symm.trans hwritten

/-- a text with a redirect and blanks in it is written, the bare redirect is not -/
theorem quoted_arrow_is_refused :
    parse "echo ' a >> b ' > notes.txt" = .ok (.writeFile "notes.txt" " a >> b " false)
      ∧ parse "echo '>' > notes.txt" ≠ .ok (.writeFile "notes.txt" ">" false) := by
  have hplain : ∀ c ∈ "notes.txt".toList, isSpecial c = false := by
    simpa using List.any_eq_false.1 (show "notes.txt".toList.any isSpecial = false by decide)
  have hpath : normalizePath "echo" "notes.txt" = .ok "notes.txt" := by
    simp [normalizePath, dropHere, Text.splitChars]
  have hspaced : '\'' ∉ " a >> b ".toList := by decide
  have hbare : '\'' ∉ ">".toList := by decide
  have hwritten := (quoted_text_is_written_iff hspaced hplain hpath false).1.2 (by decide)
  have hrefused := mt (quoted_text_is_written_iff hbare hplain hpath false).1.1 (by decide)
  simp only [echoLine, redirectWord] at hwritten hrefused
  exact ⟨by simpa using hwritten, by simpa using hrefused⟩

end RepoTutor.Command
