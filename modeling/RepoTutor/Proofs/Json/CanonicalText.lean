/-
The canonical text tells a value apart from all others, up to the order of members.

The text of a value without doubles shows its form by the first character (`chars_front`) and its end by itself: the text
of one value is never the beginning of the text of another, whatever follows (`chars_toldApart`). Numbers end where no
digit follows, strings are read back with their escapes, and items and members are told apart one after the other
(`further_toldApart`). There is no bound on depth or size. With the canonical form it follows that canonical texts are
equal for equal values and for no others (`canonicalText_eq_iff`).
-/
import RepoTutor.Proofs.Json.CanonicalForm
import RepoTutor.Proofs.Json.RoundTrip

namespace RepoTutor.Json

/-! ## Values without doubles -/

namespace Value

/-- every number is whole -/
inductive FloatFree : Value → Prop where
  | null : FloatFree null
  | bool (b : Bool) : FloatFree (bool b)
  | whole (n : Int) : FloatFree (num (.whole n))
  | str (s : String) : FloatFree (str s)
  | arr {items : List Value} (h : ∀ v ∈ items, FloatFree v) : FloatFree (arr items)
  | obj {members : List (String × Value)} (h : ∀ m ∈ members, FloatFree m.2) : FloatFree (obj members)

attribute [simp] FloatFree.null FloatFree.bool FloatFree.whole FloatFree.str

@[simp] theorem floatFree_arr {items : List Value} : FloatFree (arr items) ↔ ∀ v ∈ items, FloatFree v :=
  ⟨fun h => by cases h; assumption, .arr⟩

@[simp] theorem floatFree_obj {members : List (String × Value)} :
    FloatFree (obj members) ↔ ∀ m ∈ members, FloatFree m.2 :=
  ⟨fun h => by cases h; assumption, .obj⟩

theorem FloatFree.canonical {v : Value} (h : FloatFree v) : FloatFree v.canonical := by
  induction h with
  | null => exact .null
  | bool b => exact .bool b
  | whole n => exact .whole n
  | str s => exact .str s
  | arr h ih =>
    simp only [Value.canonical, canonicalItems_eq]
    exact .arr (List.forall_mem_map.2 ih)
  | obj h ih =>
    refine .obj (fun m hm => ?_)
    have hget := Table.get?_eq_some_iff.2 hm
    rw [get?_canonicalMembers] at hget
    obtain ⟨v, hv, heq⟩ := Option.map_eq_some_iff.1 hget
    rw [← heq]
    exact ih _ (mem_of_member? hv)

@[simp] theorem floatFree_ofNat (n : Nat) : FloatFree (ofNat n) := .whole n

@[simp] theorem floatFree_ofStrings (l : List String) : FloatFree (ofStrings l) := by
  simp [ofStrings]

@[simp] theorem floatFree_textTable (t : Table String) : FloatFree (ofTable .str t) :=
  .obj (List.forall_mem_map.2 (fun e _ => .str e.2))

end Value

open Value

/-! ## Numbers and strings -/

/-- different texts of this kind are told apart from the front, whatever follows -/
def ToldApart {α : Type} (text : α → List Char) (good : α → Prop) (a : α) : Prop :=
  ∀ b, good b → ∀ rest rest', EndsNumber rest → EndsNumber rest' → text a ++ rest = text b ++ rest' →
    a = b ∧ rest = rest'

theorem digits_toldApart {n m : Nat} {rest rest' : List Char} (hrest : EndsNumber rest) (hrest' : EndsNumber rest')
    (h : Nat.toDigits 10 n ++ rest = Nat.toDigits 10 m ++ rest') : n = m ∧ rest = rest' := by
  have hread := congrArg digits h
  rw [digits_append (fun c hc => isDigit_of_mem_toDigits hc) hrest,
    digits_append (fun c hc => isDigit_of_mem_toDigits hc) hrest', Prod.mk.injEq] at hread
  refine ⟨?_, hread.2⟩
  have hn : digitsBelow (n + m + 1) 0 (Nat.toDigits 10 n ++ []) = (n, []) := digitsBelow_toDigits (by omega) []
  have hm : digitsBelow (n + m + 1) 0 (Nat.toDigits 10 m ++ []) = (m, []) := digitsBelow_toDigits (by omega) []
  rw [hread.1, hm] at hn
  exact (Prod.mk.inj hn).1.symm

/-- a minus sign is no digit -/
theorem minus_ne_digits (n : Nat) (cs rest : List Char) : '-' :: cs ≠ Nat.toDigits 10 n ++ rest := by
  obtain ⟨d, ds, hds, hdigit⟩ := toDigits_front n
  rw [hds]
  rintro ⟨⟩
  cases hdigit

theorem intChars_toldApart {n m : Int} {rest rest' : List Char} (hrest : EndsNumber rest) (hrest' : EndsNumber rest')
    (h : intChars n ++ rest = intChars m ++ rest') : n = m ∧ rest = rest' := by
  unfold intChars at h
  split_ifs at h with hn hm hm
  · simp only [List.cons_append, List.cons.injEq, true_and] at h
    obtain ⟨habs, heq⟩ := digits_toldApart hrest hrest' h
    exact ⟨by omega, heq⟩
  · exact absurd h (minus_ne_digits _ _ _)
  · exact absurd h.symm (minus_ne_digits _ _ _)
  · obtain ⟨habs, heq⟩ := digits_toldApart hrest hrest' h
    exact ⟨by omega, heq⟩

theorem quote_toldApart {s t : String} {rest rest' : List Char} (h : quote s.toList ++ rest = quote t.toList ++ rest') :
    s = t ∧ rest = rest' := by
  obtain ⟨cs, hs, hbody⟩ := stringBody_quote s rest
  obtain ⟨cs', ht, hbody'⟩ := stringBody_quote t rest'
  rw [hs, ht] at h
  obtain rfl := (List.cons.inj h).2
  have heq := Except.ok.inj (hbody.symm.trans hbody')
  exact ⟨String.toList_injective (Prod.mk.inj heq).1, (Prod.mk.inj heq).2⟩

/-! ## Items and members -/

section Spread

variable {α : Type} {text : α → List Char} {good : α → Prop} {l l' : List α} {c : Char} {rest rest' : List Char}

theorem further_toldApart (hapart : ∀ a ∈ l, ToldApart text good a) (hgood : ∀ b ∈ l', good b)
    (hc : c = ']' ∨ c = '\x7d') (h : further [] (l.map text) ++ c :: rest = further [] (l'.map text) ++ c :: rest') :
    l = l' ∧ rest = rest' := by
  have hcomma : c ≠ ',' := by rcases hc with rfl | rfl <;> decide
  induction l generalizing l' with
  | nil =>
    cases l' with
    | nil => exact ⟨rfl, (List.cons.inj h).2⟩
    | cons b l' => exact absurd (List.cons.inj h).1 hcomma
  | cons a l ih =>
    cases l' with
    | nil => exact absurd (List.cons.inj h).1.symm hcomma
    | cons b l' =>
      have hends : ∀ (l : List α) rest, EndsNumber (further [] (l.map text) ++ c :: rest) :=
        fun l rest => endsNumber_further blank_nil hc [] (l.map text) rest
      have hnext : text a ++ (further [] (l.map text) ++ c :: rest)
          = text b ++ (further [] (l'.map text) ++ c :: rest') := by
        simpa [further] using h
      obtain ⟨ha, hl⟩ := List.forall_mem_cons.1 hapart
      obtain ⟨hb, hl'⟩ := List.forall_mem_cons.1 hgood
      obtain ⟨rfl, hrest⟩ := ha b hb _ _ (hends l rest) (hends l' rest') hnext
      obtain ⟨rfl, heq⟩ := ih hl hl' hrest
      exact ⟨rfl, heq⟩

theorem spread_toldApart (hbegins : ∀ a, good a → Begins (text a)) (hl : ∀ a ∈ l, good a)
    (hapart : ∀ a ∈ l, ToldApart text good a) (hgood : ∀ b ∈ l', good b) (hc : c = ']' ∨ c = '\x7d')
    (h : spread [] [] (l.map text) ++ c :: rest = spread [] [] (l'.map text) ++ c :: rest') :
    l = l' ∧ rest = rest' := by
  have hclose : ∀ a, good a → ∀ cs cs', c :: cs ≠ text a ++ cs' := by
    intro a ha cs cs' heq
    obtain ⟨d, ds, hds, -, hbracket, hbrace⟩ := hbegins a ha
    rw [hds] at heq
    obtain ⟨rfl, -⟩ := List.cons.inj heq
    exact hc.elim hbracket hbrace
  cases l with
  | nil =>
    cases l' with
    | nil => exact ⟨rfl, (List.cons.inj h).2⟩
    | cons b l' =>
      simp only [List.map_cons, List.map_nil, spread, List.nil_append, List.append_nil, List.append_assoc] at h
      exact absurd h (hclose b (hgood b List.mem_cons_self) _ _)
  | cons a l =>
    cases l' with
    | nil =>
      simp only [List.map_cons, List.map_nil, spread, List.nil_append, List.append_nil, List.append_assoc] at h
      exact absurd h.symm (hclose a (hl a List.mem_cons_self) _ _)
    | cons b l' =>
      -- with a comma in front the first part is one of the further ones
      refine further_toldApart hapart hgood hc ?_
      simpa [spread, further] using h

end Spread

/-! ## Values -/

/-- which of its six forms a value has -/
def formOf : Value → Nat
  | .null => 0
  | .bool _ => 1
  | .num _ => 2
  | .str _ => 3
  | .arr _ => 4
  | .obj _ => 5

/-- the form that the first character of a text shows -/
def formAt (c : Char) : Nat :=
  if c = 'n' then 0 else if c = 't' ∨ c = 'f' then 1 else if c = '"' then 3 else if c = '[' then 4
  else if c = '\x7b' then 5 else 2

theorem intChars_front (n : Int) : ∃ c cs, intChars n = c :: cs ∧ (c = '-' ∨ Text.isDigit c = true) := by
  unfold intChars
  split_ifs
  · exact ⟨_, _, rfl, Or.inl rfl⟩
  · obtain ⟨d, ds, hds, hdigit⟩ := toDigits_front n.natAbs
    exact ⟨d, ds, hds, Or.inr hdigit⟩

/-- a text of this kind shows by its first character which form the value has -/
theorem chars_front {v : Value} (h : FloatFree v) :
    ∃ c cs, v.chars = c :: cs ∧ formAt c = formOf v ∧ isSpace c = false ∧ c ≠ ']' ∧ c ≠ '\x7d' := by
  cases h with
  | null => exact ⟨_, _, rfl, rfl, by decide⟩
  | bool b => cases b <;> exact ⟨_, _, rfl, rfl, by decide⟩
  | whole n =>
    obtain ⟨c, cs, hcs, hfront⟩ := intChars_front n
    refine ⟨c, cs, hcs, ?_⟩
    rcases hfront with rfl | hdigit
    · exact ⟨rfl, by decide⟩
    · have hne : ∀ d, Text.isDigit d = false → c ≠ d := by
        rintro d hd rfl
        rw [hdigit] at hd
        cases hd
      simp [formAt, formOf, isSpace, hne 'n' rfl, hne 't' rfl, hne 'f' rfl, hne '"' rfl, hne '[' rfl, hne '\x7b' rfl,
        hne ' ' rfl, hne '\n' rfl, hne '\t' rfl, hne '\r' rfl, hne ']' rfl, hne '\x7d' rfl]
  | str s => exact ⟨_, _, rfl, rfl, by decide⟩
  | arr h => exact ⟨_, _, rfl, rfl, by decide⟩
  | obj h => exact ⟨_, _, rfl, rfl, by decide⟩

theorem begins_chars {v : Value} (h : FloatFree v) : Begins v.chars := by
  obtain ⟨c, cs, hcs, -, hrest⟩ := chars_front h
  exact ⟨c, cs, hcs, hrest⟩

theorem formOf_eq_of_chars {v w : Value} (hv : FloatFree v) (hw : FloatFree w) {rest rest' : List Char}
    (h : v.chars ++ rest = w.chars ++ rest') : formOf v = formOf w := by
  obtain ⟨c, cs, hcs, hc, -⟩ := chars_front hv
  obtain ⟨d, ds, hds, hd, -⟩ := chars_front hw
  rw [hcs, hds] at h
  rw [← hc, ← hd, (List.cons.inj h).1]

/-- members of one value are told apart as their values are -/
theorem memberText_toldApart {m : String × Value} (h : ToldApart chars FloatFree m.2) :
    ToldApart (fun m => memberText [] (m, m.2.chars)) (fun m => FloatFree m.2) m := by
  intro m' hm' rest rest' hrest hrest' heq
  simp only [memberText, List.nil_append, List.append_assoc, List.cons_append] at heq
  obtain ⟨hkey, htail⟩ := quote_toldApart heq
  obtain ⟨hvalue, hend⟩ := h m'.2 hm' rest rest' hrest hrest' (List.cons.inj htail).2
  exact ⟨Prod.ext hkey hvalue, hend⟩

/-- **Texts of values without doubles are told apart**: the text of one is no beginning of the text of another. -/
theorem chars_toldApart {v : Value} (hv : FloatFree v) : ToldApart chars FloatFree v := by
  induction hv with
  | null =>
    intro w hw rest rest' hrest hrest' h
    have hform := formOf_eq_of_chars .null hw h
    cases hw with
    | null => exact ⟨rfl, List.append_cancel_left h⟩
    | _ => cases hform
  | bool b =>
    intro w hw rest rest' hrest hrest' h
    have hform := formOf_eq_of_chars (.bool b) hw h
    cases hw with
    | bool b' =>
      cases b <;> cases b' <;> simp_all [chars]
    | _ => cases hform
  | whole n =>
    intro w hw rest rest' hrest hrest' h
    have hform := formOf_eq_of_chars (.whole n) hw h
    cases hw with
    | whole m =>
      obtain ⟨rfl, heq⟩ := intChars_toldApart hrest hrest' h
      exact ⟨rfl, heq⟩
    | _ => cases hform
  | str s =>
    intro w hw rest rest' hrest hrest' h
    have hform := formOf_eq_of_chars (.str s) hw h
    cases hw with
    | str t =>
      obtain ⟨rfl, heq⟩ := quote_toldApart h
      exact ⟨rfl, heq⟩
    | _ => cases hform
  | @arr items hitems ih =>
    intro w hw rest rest' hrest hrest' h
    have hform := formOf_eq_of_chars (.arr hitems) hw h
    cases hw with
    | @arr items' hitems' =>
      simp only [chars, itemChars_eq, List.cons_append, List.append_assoc, List.nil_append, List.cons.injEq,
        true_and] at h
      obtain ⟨rfl, heq⟩ := spread_toldApart (fun _ => begins_chars) hitems ih hitems' (Or.inl rfl) h
      exact ⟨rfl, heq⟩
    | _ => cases hform
  | @obj members hmembers ih =>
    intro w hw rest rest' hrest hrest' h
    have hform := formOf_eq_of_chars (.obj hmembers) hw h
    cases hw with
    | @obj members' hmembers' =>
      simp only [chars, memberChars_eq, List.cons_append, List.append_assoc, List.nil_append, List.cons.injEq,
        true_and] at h
      obtain ⟨rfl, heq⟩ := spread_toldApart (fun m _ => begins_memberText [] (m, m.2.chars)) hmembers
        (fun m hm => memberText_toldApart (ih m hm)) hmembers' (Or.inr rfl) h
      exact ⟨rfl, heq⟩
    | _ => cases hform

theorem compact_inj {v w : Value} (hv : FloatFree v) (hw : FloatFree w) (h : v.compact = w.compact) : v = w := by
  have hchars : v.chars ++ [] = w.chars ++ [] := by rw [String.ofList_inj.1 h]
  exact (chars_toldApart hv w hw [] [] endsNumber_nil endsNumber_nil hchars).1

/-- **The canonical text tells apart what is not equal**, where there are no doubles. -/
theorem canonicalText_eq_iff {v w : Value} (hv : FloatFree v) (hw : FloatFree w) :
    canonicalText v = canonicalText w ↔ Same v w := by
  rw [← canonical_eq_iff]
  constructor
  · exact compact_inj hv.canonical hw.canonical
  · intro h
    rw [canonicalText, h, canonicalText]

end RepoTutor.Json
