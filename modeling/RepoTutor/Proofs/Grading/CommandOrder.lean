/-
Expected commands and the lines that satisfy them.

Taking each expected command as early as possible finds as many of them in order as there can be found
(`le_matchInOrder_iff`), so the check of their order passes exactly when they occur in the history in this order
(`checkCommandOrder_passed`). A line that can be read satisfies itself as an expected command (`commandMatches_self`): it
has a word besides a leading `git`, and it is no regular expression, because a word that begins with `re:` is no command.
-/
import Mathlib.Data.List.Forall2
import RepoTutor.Grading.Verdict
import RepoTutor.Proofs.Command.Words
import RepoTutor.Proofs.Data.Except

namespace RepoTutor.Grading

open Command

/-! ## Order -/

/-- the commands are satisfied by lines of the history that stand in the same order -/
def OccursInOrder (wants history : List String) : Prop :=
  List.SublistForall₂ (fun want line => commandMatches want line = true) wants history

namespace OccursInOrder

variable {want line : String} {wants history : List String}

theorem tail (h : OccursInOrder (want :: wants) history) : OccursInOrder wants history := by
  induction history with
  | nil => cases h
  | cons line history ih =>
    cases h with
    | cons _ h => exact .cons_right h
    | cons_right h => exact .cons_right (ih h)

/-- commands that satisfy themselves occur where they stand -/
theorem of_sublist (hself : ∀ want ∈ wants, commandMatches want want = true) (h : wants.Sublist history) :
    OccursInOrder wants history :=
  List.sublistForall₂_iff.2 ⟨wants, List.forall₂_same.2 hself, h⟩

theorem cons_iff_of_matches (hline : commandMatches want line = true) :
    OccursInOrder (want :: wants) (line :: history) ↔ OccursInOrder wants history := by
  constructor
  · intro h
    cases h with
    | cons _ h => exact h
    | cons_right h => exact OccursInOrder.tail h
  · intro h
    exact .cons hline h

theorem cons_iff_of_not_matches (hline : commandMatches want line ≠ true) :
    OccursInOrder (want :: wants) (line :: history) ↔ OccursInOrder (want :: wants) history := by
  constructor
  · intro h
    cases h with
    | cons hmatch _ => exact absurd hmatch hline
    | cons_right h => exact h
  · exact .cons_right

end OccursInOrder

theorem matchInOrder_le (wants history : List String) : matchInOrder wants history ≤ wants.length := by
  induction history generalizing wants with
  | nil => cases wants <;> simp [matchInOrder]
  | cons line history ih =>
    cases wants with
    | nil => simp [matchInOrder]
    | cons want wants =>
      rw [matchInOrder]
      split
      · exact Nat.succ_le_succ (ih wants)
      · exact ih (want :: wants)

/-- **The earliest matches are the most.** As many commands are matched in order as can be found in order at all. -/
theorem le_matchInOrder_iff {wants history : List String} {k : Nat} (hk : k ≤ wants.length) :
    k ≤ matchInOrder wants history ↔ OccursInOrder (wants.take k) history := by
  -- along the history, since a line is used by one command at most
  induction history generalizing wants k with
  | nil =>
    cases k with
    | zero => exact ⟨fun _ => .nil, fun _ => Nat.zero_le _⟩
    | succ k =>
      obtain ⟨want, wants, rfl⟩ := List.exists_cons_of_length_pos (Nat.lt_of_lt_of_le (Nat.succ_pos k) hk)
      simp only [matchInOrder, Nat.le_zero, reduceCtorEq, List.take_succ_cons, false_iff]
      intro h
      cases h
  | cons line history ih =>
    cases k with
    | zero => exact ⟨fun _ => .nil, fun _ => Nat.zero_le _⟩
    | succ k =>
      obtain ⟨want, wants, rfl⟩ := List.exists_cons_of_length_pos (Nat.lt_of_lt_of_le (Nat.succ_pos k) hk)
      rw [matchInOrder, List.take_succ_cons]
      split
      · rename_i hline
        rw [OccursInOrder.cons_iff_of_matches hline, Nat.succ_le_succ_iff]
        exact ih (Nat.le_of_succ_le_succ hk)
      · rename_i hline
        rw [OccursInOrder.cons_iff_of_not_matches hline, ih hk, List.take_succ_cons]

theorem matchInOrder_eq_length_iff {wants history : List String} :
    matchInOrder wants history = wants.length ↔ OccursInOrder wants history := by
  have hall : wants.length ≤ matchInOrder wants history ↔ OccursInOrder (wants.take wants.length) history :=
    le_matchInOrder_iff (Nat.le_refl _)
  rw [List.take_length] at hall
  rw [← hall]
  exact ⟨fun h => Nat.le_of_eq h.symm, Nat.le_antisymm (matchInOrder_le wants history)⟩

theorem checkCommandOrder_passed {c : Context} {expected : List String} :
    (c.checkCommandOrder expected).passed = true ↔ OccursInOrder expected c.history := by
  rw [← matchInOrder_eq_length_iff, Context.checkCommandOrder]
  exact decide_eq_true_iff

theorem checkCommandIssued_passed {c : Context} {expected : String} :
    (c.checkCommandIssued expected).passed = true ↔ ∃ line ∈ c.history, commandMatches expected line = true := by
  unfold Context.checkCommandIssued
  cases hfound : c.history.find? (commandMatches expected) with
  | none => simpa using List.find?_eq_none.1 hfound
  | some line =>
    simp only [true_iff]
    exact ⟨line, List.mem_of_find?_eq_some hfound, List.find?_some hfound⟩

/-! ## Lines that satisfy themselves -/

/-- a word that is begun is finished as the first one, whatever comes after -/
def Begun (word : List Char) (words : List (List Char)) : Prop := ∃ more rest, words = (word.reverse ++ more) :: rest

theorem Begun.of_push {c : Char} {word : List Char} {words : List (List Char)} (h : Begun (c :: word) words) :
    Begun word words := by
  obtain ⟨more, rest, rfl⟩ := h
  exact ⟨c :: more, rest, by simp⟩

theorem Begun.flush (word : List Char) (finished : List (List Char)) :
    Begun word (Pending.flush (some word) finished) :=
  ⟨[], finished, by simp [Pending.flush]⟩

theorem begun_of_scanWords {q : Quoting} {word cs : List Char} {words : List (List Char)}
    (h : scanWords q (some word) cs = some words) : Begun word words := by
  generalize hp : (some word : Pending) = p at h
  fun_induction scanWords q p cs generalizing word words with
  | case1 | case13 | case15 =>
    -- the line ends
    subst hp
    cases h
    exact .flush word _
  | case2 | case3 | case7 => cases h
  | case4 _ _ ih | case6 _ _ ih | case11 _ _ ih | case12 _ _ _ ih =>
    subst hp
    exact ih rfl h
  | case5 _ _ _ _ ih | case8 _ _ _ _ _ ih | case9 _ _ _ _ _ ih | case10 _ _ _ _ _ ih | case14 _ _ _ _ _ ih
  | case19 _ _ _ _ _ _ _ _ ih =>
    subst hp
    exact (ih rfl h).of_push
  | case16 | case17 | case18 =>
    -- the word ends before the line does
    subst hp
    obtain ⟨rest, -, rfl⟩ := Option.map_eq_some_iff.1 h
    exact .flush word _

/-- plain characters in front of a line are the front of its first word -/
theorem scanWords_of_plain_front {front cs : List Char} (hne : front ≠ []) (hplain : ∀ c ∈ front, isSpecial c = false)
    {words : List (List Char)} (h : scanWords .bare none (front ++ cs) = some words) :
    ∃ more rest, words = (front ++ more) :: rest := by
  obtain ⟨c, front, rfl⟩ := List.exists_cons_of_ne_nil hne
  rw [List.cons_append, scanWords_plainChar _ _ (hplain c List.mem_cons_self), Pending.push, Option.getD_none,
    scanWords_plain (fun d hd => hplain d (List.mem_cons_of_mem c hd))] at h
  obtain ⟨more, rest, rfl⟩ := begun_of_scanWords h
  exact ⟨more, rest, by simp⟩

/-- first words of lines that can be read -/
def commandNames : List String :=
  ["git", "touch", "echo", "init", "add", "rm", "restore", "commit", "branch", "checkout", "switch", "merge", "reset",
    "log", "status"]

theorem parseSubcommand_eq_ok {name : String} {tokens : List String} {op : Operation}
    (h : parseSubcommand name tokens = .ok op) : name ∈ commandNames := by
  unfold parseSubcommand at h
  split at h
  case h_13 => cases h
  all_goals decide

theorem parseWords_eq_ok {name : String} {rest : List String} {op : Operation}
    (h : parseWords (name :: rest) = .ok op) : name ∈ commandNames := by
  unfold parseWords at h
  split at h
  case h_7 hwords =>
    cases hwords
    exact parseSubcommand_eq_ok h
  all_goals
    rename_i hwords
    cases hwords
  all_goals decide

/-- a line that can be read has words, and the first one is the name of a command -/
theorem parse_words {line : String} {op : Operation} (h : parse line = .ok op) :
    ∃ name rest, tokenize line = .ok (name :: rest) ∧ name ∈ commandNames ∧ (name = "git" → rest ≠ []) := by
  obtain ⟨words, hwords, h⟩ := Except.bind_eq_ok.1 h
  cases words with
  | nil => cases h
  | cons name rest =>
    refine ⟨name, rest, hwords, parseWords_eq_ok h, ?_⟩
    rintro rfl rfl
    cases h

theorem normalizedWords_ne_nil {line : String} {op : Operation} (h : parse line = .ok op) :
    normalizedWords line ≠ [] := by
  obtain ⟨name, rest, hwords, -, hgit⟩ := parse_words h
  unfold normalizedWords
  simp only [hwords]
  split
  · rename_i hname
    cases hname
    exact hgit rfl
  · simp

theorem dropPrefix?_eq_some {front cs rest : List Char} :
    Text.dropPrefix? front cs = some rest ↔ cs = front ++ rest := by
  induction front generalizing cs with
  | nil => simp [Text.dropPrefix?]
  | cons p front ih =>
    cases cs with
    | nil => simp [Text.dropPrefix?]
    | cons c cs =>
      by_cases hc : p = c
      · simp [Text.dropPrefix?, hc, ih]
      · simp [Text.dropPrefix?, hc, Ne.symm hc]

/-- what begins with `re:` is no line that can be read -/
theorem dropPrefix?_of_parse {line : String} {op : Operation} (h : parse line = .ok op) :
    Text.dropPrefix? "re:".toList line.toList = none := by
  obtain ⟨name, rest, hwords, hname, -⟩ := parse_words h
  rw [Option.eq_none_iff_forall_ne_some]
  intro pattern hpattern
  have hplain : ∀ c ∈ "re:".toList, isSpecial c = false := by
    have hall : "re:".toList.all (fun c => !isSpecial c) = true := by decide
    intro c hc
    simpa using List.all_eq_true.1 hall c hc
  rw [tokenize, dropPrefix?_eq_some.1 hpattern] at hwords
  cases hscan : scanWords .bare none ("re:".toList ++ pattern) with
  | none =>
    rw [hscan] at hwords
    cases hwords
  | some words =>
    obtain ⟨more, others, rfl⟩ := scanWords_of_plain_front (by decide) hplain hscan
    rw [hscan] at hwords
    cases hwords
    have hcommand : ∀ name ∈ commandNames, Text.dropPrefix? "re:".toList name.toList = none := by decide
    have hfront : Text.dropPrefix? "re:".toList (String.ofList ("re:".toList ++ more)).toList = some more :=
      dropPrefix?_eq_some.2 String.toList_ofList
    rw [hcommand _ hname] at hfront
    cases hfront

/-- **A line that can be read satisfies itself.** -/
theorem commandMatches_self {line : String} {op : Operation} (h : parse line = .ok op) :
    commandMatches line line = true := by
  have hwords := normalizedWords_ne_nil h
  simp only [commandMatches, dropPrefix?_of_parse h]
  simp [hwords]

end RepoTutor.Grading
