/-
JSON text is read back.

Reader and printers meet at the texts of a value (`Written`): its parts in their order, with any blanks between them. The
reader finds the value in each of its texts and stops right behind it (`Written.takes`). The compact text and the
indented text are two of them (`written_chars`, `written_indented`), so both are read back (`parse?_compact`,
`parse?_pretty`). This holds for values without doubles whose numbers fit a 64-bit word and that nest no deeper than the
reader follows (`Readable`). The pieces are read back one by one: the digits of a number (`unsigned_toDigits`), the
characters of a string with their escapes (`stringBody_quote`), the items of an array (`arrayBody_spread`) and the
members of an object (`objectBody_spread`). From the value, the lists, tables and numbers that it was made from are found
again (`listOf?_ofStrings`, `tableOf?_ofTable`, `nat64?_ofNat`).
-/
import Mathlib.Data.Nat.Digits.Defs
import RepoTutor.Json.Parser
import RepoTutor.Json.Printer
import RepoTutor.Json.Record
import RepoTutor.Proofs.Data.Except
import RepoTutor.Proofs.Data.Membership

namespace RepoTutor.Json

/-! ## Numbers -/

/-- what follows a number and is no part of it -/
def EndsNumber (rest : List Char) : Prop :=
  ∀ c ∈ rest.head?, Text.isDigit c = false ∧ c ≠ '.' ∧ c ≠ 'e' ∧ c ≠ 'E'

theorem endsNumber_nil : EndsNumber [] := fun c hc => by cases hc

theorem isDigit_of_mem_toDigits {n : Nat} {c : Char} (hc : c ∈ Nat.toDigits 10 n) : Text.isDigit c = true := by
  have hdigit := Nat.isDigit_of_mem_toDigits (by decide) (by decide) hc
  simpa [Char.isDigit, Text.isDigit, Char.le_def] using hdigit

theorem head?_toDigits {n : Nat} (hn : 0 < n) : (Nat.toDigits 10 n).head? ≠ some '0' := by
  induction n using Nat.strongRecOn with
  | _ n ih =>
    by_cases hsmall : n < 10
    · have hdigit : ∀ d < 10, 0 < d → d.digitChar ≠ '0' := by decide
      rw [Nat.toDigits_of_lt_base hsmall]
      simpa using hdigit n hsmall hn
    · rw [Nat.toDigits_of_base_le (by decide) (by omega), List.head?_append]
      rw [Option.or_of_isSome (by simp [Nat.toDigits_ne_nil])]
      exact ih (n / 10) (by omega) (by omega)

theorem toDigits_front (n : Nat) : ∃ d ds, Nat.toDigits 10 n = d :: ds ∧ Text.isDigit d = true := by
  cases hds : Nat.toDigits 10 n with
  | nil => exact absurd hds Nat.toDigits_ne_nil
  | cons d ds => exact ⟨d, ds, rfl, isDigit_of_mem_toDigits (n := n) (by rw [hds]; exact List.mem_cons_self)⟩

/-- only zero is written with a zero at the front -/
theorem tail_of_toDigits_zero {n : Nat} {ds : List Char} (h : Nat.toDigits 10 n = '0' :: ds) : ds = [] := by
  rcases Nat.eq_zero_or_pos n with rfl | hn
  · exact (List.cons.inj h).2.symm
  · exact absurd (by rw [h]; rfl) (head?_toDigits hn)

theorem digitsBelow_toDigits {bound n : Nat} (hn : n < bound) (more : List Char) :
    digitsBelow bound 0 (Nat.toDigits 10 n ++ more) = digitsBelow bound n more := by
  induction n using Nat.strongRecOn generalizing more with
  | _ n ih =>
    have hdigit : ∀ d < 10, Text.digitsValue [d.digitChar] = d := by decide
    by_cases hsmall : n < 10
    · rw [Nat.toDigits_of_lt_base hsmall, List.singleton_append, digitsBelow, hdigit n hsmall]
      simp [hn]
    · rw [Nat.toDigits_of_base_le (by decide) (by omega), List.append_assoc, ih (n / 10) (by omega) (by omega),
        List.singleton_append, digitsBelow, hdigit (n % 10) (by omega)]
      have hsum : n / 10 * 10 + n % 10 = n := by omega
      simp [hsum, hn]

theorem digits_append {ds rest : List Char} (hds : ∀ c ∈ ds, Text.isDigit c = true) (hrest : EndsNumber rest) :
    digits (ds ++ rest) = (ds, rest) := by
  have hstop : rest.takeWhile Text.isDigit = [] ∧ rest.dropWhile Text.isDigit = rest := by
    cases rest with
    | nil => exact ⟨rfl, rfl⟩
    | cons c rest =>
      have hc := (hrest c rfl).1
      simp [hc]
  rw [digits, List.takeWhile_append_of_pos hds, List.dropWhile_append_of_pos hds, hstop.1, hstop.2, List.append_nil]

theorem unsigned_toDigits {n : Nat} (hn : n < wordCount 64) {rest : List Char} (hrest : EndsNumber rest) :
    unsigned false (Nat.toDigits 10 n ++ rest) = .ok (.whole n, rest) := by
  have hfraction : fraction rest = .ok ([], rest) := by
    cases rest with
    | nil => rfl
    | cons c rest =>
      have hc := (hrest c rfl).2.1
      unfold fraction
      split
      · rename_i heq
        exact absurd (List.cons.inj heq).1 hc
      · rfl
  have hexponent : exponent rest = .ok (none, rest) := by
    cases rest with
    | nil => rfl
    | cons c rest =>
      have hc := (hrest c rfl).2.2
      simp [exponent, hc]
  have hwhole : wholeOf? false (Nat.toDigits 10 n) = some (.whole n) := by
    have hbelow := digitsBelow_toDigits hn []
    rw [List.append_nil] at hbelow
    simp [wholeOf?, hbelow, digitsBelow]
  unfold unsigned
  rw [digits_append (fun c hc => isDigit_of_mem_toDigits hc) hrest]
  dsimp only
  split
  · rename_i hnil
    exact absurd hnil Nat.toDigits_ne_nil
  · rename_i c more hzero
    cases tail_of_toDigits_zero hzero
  · rw [hfraction]
    simp [hexponent, hwhole, bind, Except.bind, pure, Except.pure]

/-! ## Strings -/

theorem hexNumber?_hexOf {n : Nat} (hn : n < 32) :
    ∃ a b c d, Hash.hexOf 4 n = [a, b, c, d] ∧ hexNumber? a b c d = some n := by
  let digit (m i : Nat) : Char := Hash.hexDigit (m / Nat.pow 16 i % 16)
  have hall : ∀ m < 32, hexNumber? (digit m 3) (digit m 2) (digit m 1) (digit m 0) = some m := by decide
  exact ⟨digit n 3, digit n 2, digit n 1, digit n 0, rfl, hall n hn⟩

theorem escapedUnit_hexOf {n : Nat} (hn : n < 32) (rest : List Char) :
    escapedUnit (Hash.hexOf 4 n ++ rest) = .ok (Char.ofNat n, rest) := by
  obtain ⟨a, b, c, d, hdigits, hvalue⟩ := hexNumber?_hexOf hn
  have hunit : hexUnit (Hash.hexOf 4 n ++ rest) = .ok (n, rest) := by
    rw [hdigits]
    simp [hexUnit, hvalue]
  have hlow : ¬(0xDC00 ≤ n ∧ n < 0xE000) := by omega
  have hhigh : ¬(0xD800 ≤ n ∧ n < 0xDC00) := by omega
  rw [escapedUnit, hunit]
  simp [bind, Except.bind, hlow, hhigh, pure, Except.pure]

/-- a character stands as it is or is escaped, and the escape names it -/
theorem escape_cases (c : Char) :
    (escape c = [c] ∧ c ≠ '"' ∧ c ≠ '\\' ∧ ¬c.toNat < 32) ∨
      ∃ e, escape c = '\\' :: e ∧ ∀ rest, unescape (e ++ rest) = .ok (c, rest) := by
  have hc : ∀ {n}, c.toNat = n → Char.ofNat n = c := fun h => h ▸ Char.ofNat_toNat c
  unfold escape
  split_ifs with hquote hbackslash hbell htab hfeed hform hreturn hcontrol
  · exact Or.inr ⟨_, rfl, fun rest => by rw [hquote]; rfl⟩
  · exact Or.inr ⟨_, rfl, fun rest => by rw [hbackslash]; rfl⟩
  · exact Or.inr ⟨_, rfl, fun rest => hc hbell ▸ rfl⟩
  · exact Or.inr ⟨_, rfl, fun rest => hc htab ▸ rfl⟩
  · exact Or.inr ⟨_, rfl, fun rest => hc hfeed ▸ rfl⟩
  · exact Or.inr ⟨_, rfl, fun rest => hc hform ▸ rfl⟩
  · exact Or.inr ⟨_, rfl, fun rest => hc hreturn ▸ rfl⟩
  · exact Or.inr ⟨_, rfl, fun rest => (escapedUnit_hexOf hcontrol rest).trans (by rw [Char.ofNat_toNat])⟩
  · exact Or.inl ⟨rfl, hquote, hbackslash, hcontrol⟩

/-- a character of a string is read as it was written -/
theorem stringBody_escape (c : Char) (rest : List Char) :
    stringBody (escape c ++ rest) = consRead c (stringBody rest) := by
  rcases escape_cases c with ⟨heq, hquote, hbackslash, hplain⟩ | ⟨e, heq, hread⟩
  · rw [heq, List.singleton_append, stringBody.eq_def]
    split
    · rename_i h
      cases h
    · rename_i h
      exact absurd (List.cons.inj h).1 hquote
    · rename_i h
      exact absurd (List.cons.inj h).1 hbackslash
    · rename_i h
      cases h
      rw [if_neg hplain]
  · rw [heq, List.cons_append, stringBody, hread]
    exact dif_pos (by rw [List.length_append]; omega)

theorem stringBody_flatMap (cs rest : List Char) :
    stringBody (cs.flatMap escape ++ '"' :: rest) = .ok (cs, rest) := by
  induction cs with
  | nil => rw [List.flatMap_nil, List.nil_append, stringBody]
  | cons c cs ih =>
    rw [List.flatMap_cons, List.append_assoc, stringBody_escape, ih]
    rfl

theorem stringBody_quote (s : String) (rest : List Char) :
    ∃ cs, quote s.toList ++ rest = '"' :: cs ∧ stringBody cs = .ok (s.toList, rest) := by
  refine ⟨s.toList.flatMap escape ++ '"' :: rest, ?_, stringBody_flatMap _ _⟩
  rw [quote, List.cons_append, List.append_assoc, List.singleton_append]

/-! ## Values -/

namespace Value

/-- no doubles, numbers of 64 bits, and at most so deep -/
inductive Readable : Nat → Value → Prop where
  | null (depth : Nat) : Readable depth null
  | bool (depth : Nat) (b : Bool) : Readable depth (bool b)
  | nat (depth : Nat) {n : Nat} (h : n < wordCount 64) : Readable depth (ofNat n)
  | str (depth : Nat) (s : String) : Readable depth (str s)
  | arr {depth : Nat} {items : List Value} (h : ∀ v ∈ items, Readable depth v) : Readable (depth + 1) (arr items)
  | obj {depth : Nat} {members : List (String × Value)} (h : ∀ m ∈ members, Readable depth m.2) :
      Readable (depth + 1) (obj members)

theorem chars_ofNat (n : Nat) : (ofNat n).chars = Nat.toDigits 10 n := by
  have hpos : ¬((n : Int) < 0) := by omega
  simp [ofNat, chars, Number.chars, intChars, hpos]

end Value

open Value

/-- nothing but blanks -/
def Blank (cs : List Char) : Prop := ∀ c ∈ cs, isSpace c = true

/-- further items or members, each after a comma and a gap -/
def further (gap : List Char) (texts : List (List Char)) : List Char := texts.flatMap (fun t => ',' :: (gap ++ t))

/-- what stands between the brackets of items, or between the braces of members -/
def spread (gap close : List Char) : List (List Char) → List Char
  | [] => []
  | t :: ts => gap ++ (t ++ (further gap ts ++ close))

/-- a key, a colon and the text of a value -/
def memberText (pad : List Char) (m : (String × Value) × List Char) : List Char :=
  quote m.1.1.toList ++ ':' :: (pad ++ m.2)

/-- the texts of a value, with blanks between its parts -/
inductive Written : Nat → Value → List Char → Prop where
  /-- a value without depth is neither an array nor an object -/
  | plain (depth : Nat) {v : Value} (h : Readable 0 v) : Written depth v v.chars
  | arr {depth : Nat} {gap close : List Char} (hgap : Blank gap) (hclose : Blank close)
      {items : List (Value × List Char)} (h : ∀ i ∈ items, Written depth i.1 i.2) :
      Written (depth + 1) (arr (items.map Prod.fst)) ('[' :: (spread gap close (items.map Prod.snd) ++ [']']))
  | obj {depth : Nat} {gap pad close : List Char} (hgap : Blank gap) (hpad : Blank pad) (hclose : Blank close)
      {members : List ((String × Value) × List Char)} (h : ∀ m ∈ members, Written depth m.1.2 m.2) :
      Written (depth + 1) (obj (members.map Prod.fst))
        ('\x7b' :: (spread gap close (members.map (memberText pad)) ++ ['\x7d']))

/-- a text that begins with neither a blank nor a closing bracket or brace -/
def Begins (text : List Char) : Prop := ∃ c cs, text = c :: cs ∧ isSpace c = false ∧ c ≠ ']' ∧ c ≠ '\x7d'

/-- a reader takes something from its text, whatever follows -/
def Takes {α : Type} (read : List Char → Read α) (a : α) (text : List Char) : Prop :=
  ∀ rest, EndsNumber rest → read (text ++ rest) = .ok (a, rest)

theorem begins_memberText (pad : List Char) (m : (String × Value) × List Char) : Begins (memberText pad m) :=
  ⟨_, _, rfl, by decide, by decide, by decide⟩

theorem Written.begins {depth : Nat} {v : Value} {text : List Char} (h : Written depth v text) : Begins text := by
  cases h with
  | plain _ h =>
    cases h with
    | null => exact ⟨_, _, rfl, by decide, by decide, by decide⟩
    | bool _ b =>
      cases b with
      | true => exact ⟨_, _, rfl, by decide, by decide, by decide⟩
      | false => exact ⟨_, _, rfl, by decide, by decide, by decide⟩
    | @nat _ n _ =>
      obtain ⟨d, ds, hds, hd⟩ := toDigits_front n
      refine ⟨d, ds, by rw [chars_ofNat, hds], ?_, ?_, ?_⟩
      · rw [Bool.eq_false_iff]
        intro hspace
        simp only [isSpace, Bool.or_eq_true, beq_iff_eq] at hspace
        rcases hspace with ((rfl | rfl) | rfl) | rfl <;> cases hd
      · rintro rfl
        cases hd
      · rintro rfl
        cases hd
    | str _ s => exact ⟨_, _, rfl, by decide, by decide, by decide⟩
  | arr => exact ⟨_, _, rfl, by decide, by decide, by decide⟩
  | obj => exact ⟨_, _, rfl, by decide, by decide, by decide⟩

/-! ## Blanks -/

theorem blank_nil : Blank [] := fun _ hc => absurd hc List.not_mem_nil

theorem blank_lineBreak (depth : Nat) : Blank (lineBreak depth) := by
  intro c hc
  rcases List.mem_cons.1 hc with rfl | hc
  · rfl
  · obtain rfl := List.eq_of_mem_replicate hc
    rfl

theorem skipSpace_blank {gap : List Char} (hgap : Blank gap) (cs : List Char) : skipSpace (gap ++ cs) = skipSpace cs :=
  List.dropWhile_append_of_pos hgap

theorem skipSpace_begins {text : List Char} (h : Begins text) (rest : List Char) :
    skipSpace (text ++ rest) = text ++ rest := by
  obtain ⟨c, cs, rfl, hspace, -⟩ := h
  exact List.dropWhile_cons_of_neg (by rw [hspace]; decide)

/-- behind the blanks stands the text -/
theorem skipSpace_gap {gap text : List Char} (hgap : Blank gap) (h : Begins text) (rest : List Char) :
    skipSpace (gap ++ (text ++ rest)) = text ++ rest := (skipSpace_blank hgap _).trans (skipSpace_begins h rest)

theorem endsNumber_gap {gap : List Char} (hgap : Blank gap) {c : Char} (hc : c = ',' ∨ c = ']' ∨ c = '\x7d')
    (rest : List Char) : EndsNumber (gap ++ c :: rest) := by
  intro d hd
  cases gap with
  | nil =>
    cases hd
    rcases hc with rfl | rfl | rfl <;> decide
  | cons b gap =>
    cases hd
    have hblank := hgap _ List.mem_cons_self
    simp only [isSpace, Bool.or_eq_true, beq_iff_eq] at hblank
    rcases hblank with ((rfl | rfl) | rfl) | rfl <;> decide

theorem endsNumber_further {close : List Char} (hclose : Blank close) {c : Char} (hc : c = ']' ∨ c = '\x7d')
    (gap : List Char) (texts : List (List Char)) (rest : List Char) :
    EndsNumber (further gap texts ++ (close ++ c :: rest)) := by
  cases texts with
  | nil => exact endsNumber_gap hclose (Or.inr hc) rest
  | cons t ts => exact endsNumber_gap blank_nil (Or.inl rfl) _

/-! ## Arrays -/

section Items

variable {gap close : List Char} {item : Reader} {items : List (Value × List Char)}

theorem moreItems_further (hgap : Blank gap) (hclose : Blank close)
    (h : ∀ i ∈ items, Begins i.2 ∧ Takes item i.1 i.2) (rest : List Char) :
    moreItems item (further gap (items.map Prod.snd) ++ (close ++ ']' :: rest)) = .ok (items.map Prod.fst, rest) := by
  induction items with
  | nil =>
    have hend : skipSpace (close ++ ']' :: rest) = ']' :: rest := skipSpace_blank hclose _
    rw [moreItems]
    simp only [further, List.map_nil, List.flatMap_nil, List.nil_append, hend]
  | cons i items ih =>
    have hmore := ih (fun j hj => h j (List.mem_cons_of_mem _ hj))
    obtain ⟨hbegins, htakes⟩ := h i List.mem_cons_self
    have hskip := skipSpace_gap hgap hbegins
    obtain ⟨c, cs, hchars, -, hbracket, -⟩ := hbegins
    generalize htail : further gap (items.map Prod.snd) ++ (close ++ ']' :: rest) = tail at hmore
    have htake := htakes tail (htail ▸ endsNumber_further hclose (Or.inl rfl) gap _ rest)
    have htext : further gap ((i :: items).map Prod.snd) ++ (close ++ ']' :: rest) =
        ',' :: (gap ++ (i.2 ++ tail)) := by
      simp [further, ← htail]
    have hcomma : skipSpace (',' :: (gap ++ (i.2 ++ tail))) = ',' :: (gap ++ (i.2 ++ tail)) := rfl
    rw [htext, moreItems, hcomma]
    simp only [hskip]
    split
    · rename_i heq
      rw [hchars] at heq
      exact absurd (List.cons.inj heq).1 hbracket
    · rw [htake]
      dsimp only
      rw [dif_pos (by simp only [List.length_cons, List.length_append]; omega), hmore]
      rfl

theorem arrayBody_spread (hgap : Blank gap) (hclose : Blank close)
    (h : ∀ i ∈ items, Begins i.2 ∧ Takes item i.1 i.2) (rest : List Char) :
    arrayBody item (spread gap close (items.map Prod.snd) ++ ']' :: rest) = .ok (.arr (items.map Prod.fst), rest) := by
  cases items with
  | nil => rfl
  | cons i items =>
    have hmore := moreItems_further hgap hclose (fun j hj => h j (List.mem_cons_of_mem _ hj)) rest
    obtain ⟨hbegins, htakes⟩ := h i List.mem_cons_self
    have hskip := skipSpace_gap hgap hbegins
    obtain ⟨c, cs, hchars, -, hbracket, -⟩ := hbegins
    have htake := htakes _ (endsNumber_further hclose (Or.inl rfl) gap (items.map Prod.snd) rest)
    rw [List.map_cons, spread, List.append_assoc, List.append_assoc, List.append_assoc, arrayBody, hskip]
    split
    · rename_i heq
      rw [hchars] at heq
      cases heq
    · rename_i heq
      rw [hchars] at heq
      exact absurd (List.cons.inj heq).1 hbracket
    · rw [htake]
      simp [bind, Except.bind, hmore, pure, Except.pure]

end Items

/-! ## Objects -/

section Members

variable {gap pad close : List Char} {item : Reader} {members : List ((String × Value) × List Char)}

theorem member_takes (hpad : Blank pad) {m : (String × Value) × List Char} (hbegins : Begins m.2)
    (htakes : Takes item m.1.2 m.2) : Takes (member item) m.1 (memberText pad m) := by
  intro rest hrest
  have hcolon : colon (':' :: (pad ++ (m.2 ++ rest))) = .ok (m.2 ++ rest) :=
    congrArg Except.ok (skipSpace_gap hpad hbegins rest)
  have htext : memberText pad m ++ rest = quote m.1.1.toList ++ ':' :: (pad ++ (m.2 ++ rest)) := by simp [memberText]
  obtain ⟨cs, hquote, hbody⟩ := stringBody_quote m.1.1 (':' :: (pad ++ (m.2 ++ rest)))
  rw [htext, hquote, member, hbody]
  simp [bind, Except.bind, hcolon, htakes rest hrest, pure, Except.pure]

theorem moreMembers_further (hgap : Blank gap) (hclose : Blank close)
    (h : ∀ m ∈ members, Takes (member item) m.1 (memberText pad m)) (rest : List Char) :
    moreMembers item (further gap (members.map (memberText pad)) ++ (close ++ '\x7d' :: rest)) =
      .ok (members.map Prod.fst, rest) := by
  induction members with
  | nil =>
    have hend : skipSpace (close ++ '\x7d' :: rest) = '\x7d' :: rest := skipSpace_blank hclose _
    rw [moreMembers]
    simp only [further, List.map_nil, List.flatMap_nil, List.nil_append, hend]
  | cons m members ih =>
    have hmore := ih (fun n hn => h n (List.mem_cons_of_mem _ hn))
    obtain ⟨c, cs, hchars, -, -, hbrace⟩ := begins_memberText pad m
    generalize htail : further gap (members.map (memberText pad)) ++ (close ++ '\x7d' :: rest) = tail at hmore
    have htake := h m List.mem_cons_self tail (htail ▸ endsNumber_further hclose (Or.inr rfl) gap _ rest)
    have htext : further gap ((m :: members).map (memberText pad)) ++ (close ++ '\x7d' :: rest) =
        ',' :: (gap ++ (memberText pad m ++ tail)) := by
      simp [further, ← htail]
    have hcomma : skipSpace (',' :: (gap ++ (memberText pad m ++ tail))) = ',' :: (gap ++ (memberText pad m ++ tail)) :=
      rfl
    rw [htext, moreMembers, hcomma]
    simp only [skipSpace_gap hgap (begins_memberText pad m)]
    split
    · rename_i heq
      rw [hchars] at heq
      cases heq
    · rename_i heq
      rw [hchars] at heq
      exact absurd (List.cons.inj heq).1 hbrace
    · rw [htake]
      dsimp only
      rw [dif_pos (by simp only [List.length_cons, List.length_append]; omega), hmore]
      rfl

theorem objectBody_spread (hgap : Blank gap) (hclose : Blank close)
    (h : ∀ m ∈ members, Takes (member item) m.1 (memberText pad m)) (rest : List Char) :
    objectBody item (spread gap close (members.map (memberText pad)) ++ '\x7d' :: rest) =
      .ok (.obj (members.map Prod.fst), rest) := by
  cases members with
  | nil => rfl
  | cons m members =>
    have hmore := moreMembers_further hgap hclose (fun n hn => h n (List.mem_cons_of_mem _ hn)) rest
    obtain ⟨c, cs, hchars, -, -, hbrace⟩ := begins_memberText pad m
    have htake := h m List.mem_cons_self _
      (endsNumber_further hclose (Or.inr rfl) gap (members.map (memberText pad)) rest)
    rw [List.map_cons, spread, List.append_assoc, List.append_assoc, List.append_assoc, objectBody,
      skipSpace_gap hgap (begins_memberText pad m)]
    split
    · rename_i heq
      rw [hchars] at heq
      cases heq
    · rename_i heq
      rw [hchars] at heq
      exact absurd (List.cons.inj heq).1 hbrace
    · rw [htake]
      simp [bind, Except.bind, hmore, pure, Except.pure]

end Members

/-! ## Whole texts -/

theorem value_of_scalar {c : Char} (harr : c ≠ '[') (hobj : c ≠ '\x7b') (depth : Nat) (cs : List Char) :
    value depth (c :: cs) = scalar (c :: cs) := by
  unfold value
  split
  · rename_i heq
    exact absurd (List.cons.inj heq).1 harr
  · rename_i heq
    exact absurd (List.cons.inj heq).1 hobj
  · rename_i heq
    exact absurd (List.cons.inj heq).1 harr
  · rename_i heq
    exact absurd (List.cons.inj heq).1 hobj
  · rfl

theorem scalar_of_digit {d : Char} (hd : Text.isDigit d = true) (cs : List Char) :
    scalar (d :: cs) = (unsigned false (d :: cs)).map (fun r => (.num r.1, r.2)) := by
  have hnumber : number (d :: cs) = unsigned false (d :: cs) := by
    unfold number
    split
    · rename_i heq
      rw [(List.cons.inj heq).1] at hd
      cases hd
    · rfl
  have hother : ∀ {c rest}, d :: cs = c :: rest → Text.isDigit c = true := fun heq => (List.cons.inj heq).1 ▸ hd
  unfold scalar
  split
  · rename_i heq
    cases hother heq
  · rename_i heq
    cases hother heq
  · rename_i heq
    cases hother heq
  · rename_i heq
    cases hother heq
  · rename_i heq
    cases heq
  · rename_i heq
    cases heq
    rw [if_pos (Or.inr hd), hnumber]

/-- a value that is neither an array nor an object is read at every depth -/
theorem value_plain (depth : Nat) {v : Value} (h : Readable 0 v) : Takes (value depth) v v.chars := by
  intro rest hrest
  cases h with
  | null => exact value_of_scalar (by decide) (by decide) depth _
  | bool _ b =>
    cases b with
    | true => exact value_of_scalar (by decide) (by decide) depth _
    | false => exact value_of_scalar (by decide) (by decide) depth _
  | @nat _ n hn =>
    rw [chars_ofNat]
    have hread := unsigned_toDigits hn hrest
    obtain ⟨d, ds, hds, hd⟩ := toDigits_front n
    rw [hds, List.cons_append] at hread ⊢
    rw [value_of_scalar (by rintro rfl; cases hd) (by rintro rfl; cases hd), scalar_of_digit hd, hread]
    rfl
  | str _ s =>
    obtain ⟨cs, hquote, hbody⟩ := stringBody_quote s rest
    rw [chars, hquote, value_of_scalar (by decide) (by decide), scalar, hbody]
    simp [Except.map]

/-- **The reader takes a value from each of its texts** and stops behind it -/
theorem Written.takes {depth : Nat} {v : Value} {text : List Char} (h : Written depth v text) :
    Takes (value depth) v text := by
  induction h with
  | plain depth h => exact value_plain depth h
  | @arr depth gap close hgap hclose items h ih =>
    intro rest _
    rw [List.cons_append, List.append_assoc]
    exact arrayBody_spread hgap hclose (fun i hi => ⟨(h i hi).begins, ih i hi⟩) rest
  | @obj depth gap pad close hgap hpad hclose members h ih =>
    intro rest _
    rw [List.cons_append, List.append_assoc]
    exact objectBody_spread hgap hclose (fun m hm => member_takes hpad (h m hm).begins (ih m hm)) rest

theorem Written.parse? {v : Value} {text : List Char} (h : Written maxDepth v text) :
    Value.parse? (String.ofList text) = some v := by
  have hskip := skipSpace_begins h.begins []
  have hvalue := h.takes [] endsNumber_nil
  rw [List.append_nil] at hskip hvalue
  rw [Value.parse?, String.toList_ofList, wholeText, hskip, hvalue]
  rfl

/-! ## Compact texts -/

theorem itemChars_eq (vs : List Value) : itemChars vs = spread [] [] (vs.map chars) := by
  cases vs with
  | nil => rfl
  | cons v vs =>
    induction vs generalizing v with
    | nil => simp [itemChars, spread, further]
    | cons w vs ih =>
      rw [itemChars, ih w]
      · simp [spread, further]
      · simp

theorem memberChars_eq (ms : List (String × Value)) :
    memberChars ms = spread [] [] (ms.map (fun m => memberText [] (m, m.2.chars))) := by
  cases ms with
  | nil => rfl
  | cons m ms =>
    induction ms generalizing m with
    | nil => simp [memberChars, spread, further, memberText]
    | cons m' ms ih =>
      rw [memberChars, ih m']
      · simp [spread, further, memberText]
      · simp

theorem written_chars {depth : Nat} {v : Value} (h : Readable depth v) : Written depth v v.chars := by
  induction h with
  | null => exact .plain _ (.null 0)
  | bool _ b => exact .plain _ (.bool 0 b)
  | nat _ hn => exact .plain _ (.nat 0 hn)
  | str _ s => exact .plain _ (.str 0 s)
  | @arr depth items _ ih =>
    have hitems : ∀ i ∈ items.map (fun v => (v, v.chars)), Written depth i.1 i.2 :=
      List.forall_mem_map.2 ih
    have hwritten := Written.arr blank_nil blank_nil hitems
    rw [chars, itemChars_eq]
    simpa [Function.comp_def] using hwritten
  | @obj depth members _ ih =>
    have hmembers : ∀ m ∈ members.map (fun m => (m, m.2.chars)), Written depth m.1.2 m.2 :=
      List.forall_mem_map.2 ih
    have hwritten := Written.obj blank_nil blank_nil blank_nil hmembers
    rw [chars, memberChars_eq]
    simpa [Function.comp_def] using hwritten

/-- **Compact text is read back.** -/
theorem parse?_compact {v : Value} (h : Readable maxDepth v) : parse? v.compact = some v := (written_chars h).parse?

/-! ## Indented texts -/

theorem indentedItems_eq (depth : Nat) (vs : List Value) :
    indentedItems depth vs = further (lineBreak depth) (vs.map (indented depth)) := by
  induction vs with
  | nil => rfl
  | cons v vs ih =>
    rw [indentedItems, ih]
    simp [further]

theorem indentedMembers_eq (depth : Nat) (ms : List (String × Value)) :
    indentedMembers depth ms =
      further (lineBreak depth) (ms.map (fun m => memberText [' '] (m, m.2.indented depth))) := by
  induction ms with
  | nil => rfl
  | cons m ms ih =>
    rw [indentedMembers, ih]
    simp [further, memberText]

theorem indented_arr (depth : Nat) (vs : List Value) :
    (arr vs).indented depth =
      '[' :: (spread (lineBreak (depth + 1)) (lineBreak depth) (vs.map (indented (depth + 1))) ++ [']']) := by
  cases vs with
  | nil => rfl
  | cons v vs => simp [indented, indentedItems_eq, spread]

theorem indented_obj (depth : Nat) (ms : List (String × Value)) :
    (obj ms).indented depth =
      '\x7b' :: (spread (lineBreak (depth + 1)) (lineBreak depth)
        (ms.map (fun m => memberText [' '] (m, m.2.indented (depth + 1)))) ++ ['\x7d']) := by
  cases ms with
  | nil => rfl
  | cons m ms => simp [indented, indentedMembers_eq, spread, memberText]

theorem written_indented {depth : Nat} {v : Value} (h : Readable depth v) (level : Nat) :
    Written depth v (v.indented level) := by
  induction h generalizing level with
  | null => exact .plain _ (.null 0)
  | bool _ b => cases b <;> exact .plain _ (.bool 0 _)
  | nat _ hn => exact .plain _ (.nat 0 hn)
  | str _ s => exact .plain _ (.str 0 s)
  | @arr depth items _ ih =>
    have hitems : ∀ i ∈ items.map (fun v => (v, v.indented (level + 1))), Written depth i.1 i.2 :=
      List.forall_mem_map.2 (fun v hv => ih v hv (level + 1))
    have hwritten := Written.arr (blank_lineBreak (level + 1)) (blank_lineBreak level) hitems
    rw [indented_arr]
    simpa [Function.comp_def] using hwritten
  | @obj depth members _ ih =>
    have hmembers : ∀ m ∈ members.map (fun m => (m, m.2.indented (level + 1))), Written depth m.1.2 m.2 :=
      List.forall_mem_map.2 (fun m hm => ih m hm (level + 1))
    have hspace : Blank [' '] := fun c hc => List.mem_singleton.1 hc ▸ rfl
    have hwritten := Written.obj (blank_lineBreak (level + 1)) hspace (blank_lineBreak level) hmembers
    rw [indented_obj]
    simpa [Function.comp_def] using hwritten

/-- **Indented text is read back.** -/
theorem parse?_pretty {v : Value} (h : Readable maxDepth v) : parse? v.pretty = some v := (written_indented h 0).parse?

namespace Value

variable {α : Type}

/-! ## Lists and tables -/

theorem readable_ofStrings (depth : Nat) (l : List String) : Readable (depth + 1) (ofStrings l) := by
  refine .arr (fun v hv => ?_)
  obtain ⟨s, -, rfl⟩ := List.mem_map.1 hv
  exact .str depth s

theorem readable_ofTable {depth : Nat} {f : α → Value} {t : Table α}
    (h : ∀ k a, t.get? k = some a → Readable depth (f a)) : Readable (depth + 1) (ofTable f t) := by
  refine .obj (fun m hm => ?_)
  obtain ⟨e, he, rfl⟩ := List.mem_map.1 hm
  exact h e.1 e.2 (Table.get?_eq_some_iff.2 he)

theorem mapM_map {β : Type} {f : α → β} {read : β → Option α} {l : List α} (h : ∀ a ∈ l, read (f a) = some a) :
    (l.map f).mapM read = some l := by
  rw [mapM_eq_some, List.map_map]
  exact List.map_congr_left h

theorem listOf?_ofStrings (l : List String) : listOf? str? (ofStrings l) = some l := mapM_map (fun _ _ => rfl)

theorem tableOf?_ofTable {f : α → Value} {read : Value → Option α} {t : Table α}
    (h : ∀ k a, t.get? k = some a → read (f a) = some a) : tableOf? read (ofTable f t) = some t := by
  have hentries : (t.entries.map (fun e => (e.1, f e.2))).mapM (fun m => (read m.2).map (fun v => (m.1, v)))
      = some t.entries := by
    refine mapM_map (fun e he => ?_)
    rw [h e.1 e.2 (Table.get?_eq_some_iff.2 he)]
    rfl
  show Option.map Table.ofList _ = some t
  rw [hentries, Option.map_some, Table.ofList_entries]

theorem nat64?_ofNat {n : Nat} (h : n < wordCount 64) : nat64? (ofNat n) = some n := by
  simp [nat64?, ofNat, natBelow?, h]

theorem lt_of_natBelow? {bound n : Nat} {v : Value} (h : natBelow? bound v = some n) : n < bound := by
  unfold natBelow? at h
  split at h
  · split at h
    · rename_i hbound
      cases h
      exact hbound.2
    · cases h
  · cases h

end Value

end RepoTutor.Json
