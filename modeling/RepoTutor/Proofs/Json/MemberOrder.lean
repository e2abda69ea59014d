/-
Records are read whatever the order of their members.

`Reordered w v` says that `v` is the value `w` but for the order in which its objects hold their members, at every depth,
and that no object in `v` repeats a key. The canonical form of a value is one of these (`reordered_canonical`). A reader
finds something in a value (`Finds`) if it does so in all of them. An object that is reordered shows its members
(`Shows`): each stands under its key once, and nothing else does. So the tag of a variant is split off
(`Shows.tagged`), the others are a record (`Shows.record`), and each field is read from what it was written as
(`Shows.required`, `Shows.optional`, `Shows.absentable`, `Shows.defaulted`). Texts are no different: a value that can be
read back from its text can be in every order (`Readable.reordered`). So what is found in a value that is written without
repeated keys is read back from all values that say the same and from their texts (`Finds.readBack`).
-/
import Mathlib.Data.List.Nodup
import RepoTutor.Proofs.Json.CanonicalForm
import RepoTutor.Proofs.Json.RoundTrip

namespace RepoTutor.Json

/-! ## Keys that are not repeated -/

section Keys

variable {l : List (String × Value)} {key : String} {v : Value}

theorem mem_of_first? (h : first? l key = some v) : (key, v) ∈ l := by
  obtain ⟨m, hfind, rfl⟩ := Option.map_eq_some_iff.1 h
  have hkey : m.1 = key := by simpa using List.find?_some hfind
  rw [← hkey]
  exact List.mem_of_find?_eq_some hfind

theorem first?_eq_some_iff (hkeys : (l.map Prod.fst).Nodup) : first? l key = some v ↔ (key, v) ∈ l := by
  refine ⟨mem_of_first?, fun hmem => ?_⟩
  cases hfirst : first? l key with
  | none =>
    have hnone := List.find?_eq_none.1 (Option.map_eq_none_iff.1 hfirst) (key, v) hmem
    simp at hnone
  | some w =>
    have hsame := List.inj_on_of_nodup_map hkeys (mem_of_first? hfirst) hmem rfl
    rw [(Prod.mk.inj hsame).2]

/-- the first member with a key is the last one -/
theorem first?_eq_member? (hkeys : (l.map Prod.fst).Nodup) (key : String) : first? l key = (Value.obj l).member? key := by
  have hreverse : (l.reverse.map Prod.fst).Nodup := by rwa [List.map_reverse, List.nodup_reverse]
  refine Option.ext (fun v => ?_)
  show first? l key = some v ↔ first? l.reverse key = some v
  rw [first?_eq_some_iff hkeys, first?_eq_some_iff hreverse, List.mem_reverse]

theorem occurrences_eq_count (l : List (String × Value)) (key : String) :
    occurrences l key = (l.map Prod.fst).count key := by
  rw [occurrences, List.count_eq_countP, List.countP_map, List.countP_eq_length_filter]
  rfl

theorem occurrences_le_one (hkeys : (l.map Prod.fst).Nodup) (key : String) : occurrences l key ≤ 1 := by
  rw [occurrences_eq_count]
  exact List.nodup_iff_count_le_one.1 hkeys key

theorem first?_eq_none (h : key ∉ l.map Prod.fst) : first? l key = none := by
  cases hfirst : first? l key with
  | none => rfl
  | some v => exact absurd (List.mem_map_of_mem (mem_of_first? hfirst)) h

theorem first?_cons (m : String × Value) (l : List (String × Value)) (key : String) :
    first? (m :: l) key = if m.1 = key then some m.2 else first? l key := by
  by_cases hkey : m.1 = key <;> simp [first?, hkey]

theorem first?_filter (l : List (String × Value)) (tag key : String) :
    first? (l.filter (fun m => m.1 != tag)) key = if tag = key then none else first? l key := by
  induction l with
  | nil => simp [first?]
  | cons m l ih =>
    by_cases htag : m.1 = tag
    · rw [List.filter_cons_of_neg (by simp [htag]), ih, first?_cons, htag]
      split <;> rfl
    · rw [List.filter_cons_of_pos (by simp [htag]), first?_cons, first?_cons, ih]
      split
      · rename_i hkey
        rw [if_neg (fun h => htag (hkey.trans h.symm))]
      · rfl

end Keys

namespace Value

/-! ## Other orders -/

section Related

variable {α β : Type} {R : α → β → Prop}

theorem rel_none {y : Option β} (h : Option.Rel R none y) : y = none := by
  cases h
  rfl

theorem rel_some {a : α} {y : Option β} (h : Option.Rel R (some a) y) : ∃ b, y = some b ∧ R a b := by
  cases h with
  | some h => exact ⟨_, rfl, h⟩

theorem rel_some_right {x : Option α} {b : β} (h : Option.Rel R x (some b)) : ∃ a, x = some a ∧ R a b := by
  cases h with
  | some h => exact ⟨_, rfl, h⟩

end Related

/-- no object in the value repeats a key -/
inductive Unrepeated : Value → Prop where
  | null : Unrepeated null
  | bool (b : Bool) : Unrepeated (bool b)
  | num (n : Number) : Unrepeated (num n)
  | str (s : String) : Unrepeated (str s)
  | arr {items : List Value} (h : ∀ v ∈ items, Unrepeated v) : Unrepeated (arr items)
  | obj {members : List (String × Value)} (hkeys : (members.map Prod.fst).Nodup)
      (h : ∀ m ∈ members, Unrepeated m.2) : Unrepeated (obj members)

/-- the same value with its members in any order, none of them repeated -/
def Reordered (w v : Value) : Prop := Same w v ∧ Unrepeated v

theorem same_canonical (v : Value) : Same v v.canonical := by
  induction v using parts_induction with
  | null => exact .null
  | bool b => exact .bool b
  | num n => exact .num n
  | str s => exact .str s
  | arr items ih =>
    rw [canonical, canonicalItems_eq, same_arr, List.forall₂_map_right_iff]
    exact List.forall₂_same.2 ih
  | obj members ih =>
    refine same_obj.2 (fun key => ?_)
    have hmember := member?_ofTable id (Table.ofList (canonicalMembers members)) key
    rw [get?_canonicalMembers, ofTable] at hmember
    simp only [id_eq, List.map_id'] at hmember
    rw [hmember]
    cases hv : (obj members).member? key with
    | none => exact .none
    | some v => exact .some (ih (key, v) (mem_of_member? hv))

theorem unrepeated_canonical (v : Value) : Unrepeated v.canonical := by
  induction v using parts_induction with
  | null => exact .null
  | bool b => exact .bool b
  | num n => exact .num n
  | str s => exact .str s
  | arr items ih =>
    rw [canonical, canonicalItems_eq]
    refine .arr (fun v hv => ?_)
    obtain ⟨w, hw, rfl⟩ := List.mem_map.1 hv
    exact ih w hw
  | obj members ih =>
    refine .obj (Table.nodup_keys _) (fun m hm => ?_)
    have hget := Table.get?_eq_some_iff.2 hm
    rw [get?_canonicalMembers] at hget
    obtain ⟨v, hv, hcanonical⟩ := Option.map_eq_some_iff.1 hget
    rw [← hcanonical]
    exact ih (m.1, v) (mem_of_member? hv)

theorem reordered_canonical (v : Value) : Reordered v v.canonical := ⟨same_canonical v, unrepeated_canonical v⟩

/-- a reordered object is an object without repeated keys -/
theorem Reordered.members {members : List (String × Value)} {v : Value} (h : Reordered (obj members) v) :
    ∃ l, v = obj l ∧ (l.map Prod.fst).Nodup
      ∧ ∀ key, Option.Rel Reordered ((obj members).member? key) (first? l key) := by
  obtain ⟨hsame, hunrepeated⟩ := h
  cases hsame with
  | @obj _ l hmembers =>
    cases hunrepeated with
    | obj hkeys hparts =>
      refine ⟨l, rfl, hkeys, fun key => ?_⟩
      have hrel := hmembers key
      rw [← first?_eq_member? hkeys] at hrel
      cases hv : first? l key with
      | none =>
        rw [hv] at hrel
        cases hw : (obj members).member? key with
        | none => exact .none
        | some w =>
          rw [hw] at hrel
          cases hrel
      | some v =>
        rw [hv] at hrel
        obtain ⟨w, hw, hsame⟩ := rel_some_right hrel
        rw [hw]
        exact .some ⟨hsame, hparts (key, v) (mem_of_first? hv)⟩

theorem Reordered.ne_null {w v : Value} (h : Reordered w v) (hw : w ≠ null) : v ≠ null := by
  rintro rfl
  cases h.1
  exact hw rfl

theorem exists_same_of_mem {items items' : List Value} (h : List.Forall₂ Same items items') {v : Value}
    (hv : v ∈ items') : ∃ w ∈ items, Same w v := by
  induction h with
  | nil => cases hv
  | cons hsame _ ih =>
    rcases List.mem_cons.1 hv with rfl | hv
    · exact ⟨_, List.mem_cons_self, hsame⟩
    · obtain ⟨w, hw, hsame⟩ := ih hv
      exact ⟨w, List.mem_cons_of_mem _ hw, hsame⟩

/-- a value that can be read back from its text can be in any order -/
theorem Readable.reordered {depth : Nat} {w v : Value} (h : Readable depth w) (hv : Reordered w v) :
    Readable depth v := by
  induction h generalizing v with
  | null depth =>
    rw [same_null.1 hv.1]
    exact .null depth
  | bool depth b =>
    rw [same_bool.1 hv.1]
    exact .bool depth b
  | nat depth hn =>
    rw [same_num.1 hv.1]
    exact .nat depth hn
  | str depth s =>
    rw [same_str.1 hv.1]
    exact .str depth s
  | arr _ ih =>
    obtain ⟨hsame, hunrepeated⟩ := hv
    cases hsame with
    | arr hsame =>
      cases hunrepeated with
      | arr hparts =>
        refine .arr (fun v hv => ?_)
        obtain ⟨w, hw, hsame⟩ := exists_same_of_mem hsame hv
        exact ih w hw ⟨hsame, hparts v hv⟩
  | obj _ ih =>
    obtain ⟨l, rfl, hkeys, hheld⟩ := hv.members
    refine .obj (fun m hm => ?_)
    have hrel := hheld m.1
    rw [(first?_eq_some_iff hkeys).2 hm] at hrel
    obtain ⟨w, hw, hreordered⟩ := rel_some_right hrel
    exact ih (m.1, w) (mem_of_member? hw) hreordered

/-! ## Readers -/

section Readers

variable {α : Type} {read : Value → Option α} {w : Value} {a : α}

/-- what a reader finds in a value, in whatever order the members are -/
def Finds (read : Value → Option α) (w : Value) (a : α) : Prop := ∀ v, Reordered w v → read v = some a

theorem finds_str (s : String) : Finds str? (str s) s := fun v hv => by rw [same_str.1 hv.1, str?]

theorem finds_bool (b : Bool) : Finds bool? (bool b) b := fun v hv => by rw [same_bool.1 hv.1, bool?]

theorem finds_nat64 {n : Nat} (h : n < wordCount 64) : Finds nat64? (ofNat n) n := fun v hv => by
  rw [same_num.1 hv.1]
  exact nat64?_ofNat h

/-- texts have no members to reorder -/
theorem eq_of_same_ofStrings {l : List String} {v : Value} (h : Same (ofStrings l) v) : v = ofStrings l := by
  cases h with
  | @arr _ items h =>
    have hitems : l.map str = items := by
      rw [← List.forall₂_eq_eq_eq, List.forall₂_map_left_iff]
      exact (List.forall₂_map_left_iff.1 h).imp (fun _ _ h => (same_str.1 h).symm)
    rw [ofStrings, hitems]

theorem finds_strings (l : List String) : Finds (listOf? str?) (ofStrings l) l := by
  intro v hv
  rw [eq_of_same_ofStrings hv.1]
  exact listOf?_ofStrings l

end Readers

/-! ## Values that are written -/

/-- the value can be read back from its text, and no object in it repeats a key -/
def Tidy (depth : Nat) (v : Value) : Prop := Readable depth v ∧ Unrepeated v

section Tidy

variable {α : Type} (depth : Nat)

@[simp] theorem tidy_bool (b : Bool) : Tidy depth (bool b) := ⟨.bool depth b, .bool b⟩

@[simp] theorem tidy_str (s : String) : Tidy depth (str s) := ⟨.str depth s, .str s⟩

@[simp] theorem tidy_ofNat {n : Nat} (h : n < wordCount 64) : Tidy depth (ofNat n) := ⟨.nat depth h, .num _⟩

@[simp] theorem tidy_ofStrings (l : List String) : Tidy (depth + 1) (ofStrings l) := by
  refine ⟨readable_ofStrings depth l, .arr (fun v hv => ?_)⟩
  obtain ⟨s, -, rfl⟩ := List.mem_map.1 hv
  exact .str s

@[simp] theorem tidy_ofOption {f : α → Value} {o : Option α} (h : ∀ a ∈ o, Tidy depth (f a)) :
    Tidy depth (ofOption f o) := by
  cases o with
  | none => exact ⟨.null depth, .null⟩
  | some a => exact h a rfl

theorem tidy_obj {members : List (String × Value)} (hkeys : (members.map Prod.fst).Nodup)
    (h : ∀ m ∈ members, Tidy depth m.2) : Tidy (depth + 1) (obj members) :=
  ⟨.obj (fun m hm => (h m hm).1), .obj hkeys (fun m hm => (h m hm).2)⟩

end Tidy

/-- what is read from every value that says the same as `w`, and from the texts of these values -/
structure ReadBack {α : Type} (read : Value → Option α) (w : Value) (a : α) : Prop where
  value : ∀ v, Reordered w v → read v = some a
  compact : ∀ v, Reordered w v → (parse? v.compact).bind read = some a
  pretty : ∀ v, Reordered w v → (parse? v.pretty).bind read = some a
  /-- the value as it is says the same -/
  written : Reordered w w
  /-- the value with its members sorted says the same -/
  sorted : Reordered w w.canonical

section ReadBack

variable {α : Type} {read : Value → Option α} {w w' : Value} {a a' : α}

theorem Finds.readBack (h : Finds read w a) (hw : Tidy maxDepth w) : ReadBack read w a where
  value := h
  compact v hv := by rw [parse?_compact (hw.1.reordered hv), Option.bind_some, h v hv]
  pretty v hv := by rw [parse?_pretty (hw.1.reordered hv), Option.bind_some, h v hv]
  written := ⟨same_refl w, hw.2⟩
  sorted := reordered_canonical w

/-- a value as it is written is read back -/
theorem ReadBack.itself (h : ReadBack read w a) : read w = some a := h.value w h.written

/-- different things are not written alike -/
theorem ReadBack.apart (h : ReadBack read w a) (h' : ReadBack read w' a') (hne : a ≠ a') {v v' : Value}
    (hv : Reordered w v) (hv' : Reordered w' v') : v ≠ v' ∧ v.compact ≠ v'.compact ∧ v.pretty ≠ v'.pretty := by
  refine ⟨?_, ?_, ?_⟩
  · rintro rfl
    exact hne (Option.some.inj ((h.value v hv).symm.trans (h'.value v hv')))
  · intro heq
    have hread := h.compact v hv
    rw [heq, h'.compact v' hv'] at hread
    exact hne (Option.some.inj hread).symm
  · intro heq
    have hread := h.pretty v hv
    rw [heq, h'.pretty v' hv'] at hread
    exact hne (Option.some.inj hread).symm

end ReadBack

end Value

/-! ## Members that an object shows -/

section Present

variable {α : Type} {r : Record} {name : String} {read : Value → Option α} {v : Value} {a : α}

theorem optional_of_some (hnull : v ≠ .null) (hv : r.field? name = some v) (hread : read v = some a) :
    r.optional name read = some (some a) := by
  cases v with
  | null => exact absurd rfl hnull
  | _ => simp [Record.optional, hv, hread]

theorem absentable_of_some (hnull : v ≠ .null) (hv : r.field? name = some v) (hread : read v = some a) :
    r.absentable name read = some (some a) := by
  cases v with
  | null => exact absurd rfl hnull
  | _ => simp [Record.absentable, hv, hread]

end Present

/-- an object holds these members and no others, each once, in any order -/
structure Shows (l members : List (String × Value)) : Prop where
  keys : (l.map Prod.fst).Nodup
  held : ∀ key, Option.Rel Value.Reordered (first? members key) (first? l key)

namespace Shows

variable {α : Type} {l members : List (String × Value)}

theorem of_reordered {v : Value} (h : Value.Reordered (.obj members) v) (hkeys : (members.map Prod.fst).Nodup) :
    ∃ l, v = .obj l ∧ Shows l members := by
  obtain ⟨l, rfl, hl, hheld⟩ := h.members
  refine ⟨l, rfl, hl, fun key => ?_⟩
  rw [first?_eq_member? hkeys]
  exact hheld key

variable (h : Shows l members)

include h

theorem field {key : String} {w : Value} (hw : first? members key = some w) :
    ∃ v, first? l key = some v ∧ Value.Reordered w v :=
  Value.rel_some (hw ▸ h.held key)

theorem absent {key : String} (hnone : first? members key = none) : first? l key = none :=
  Value.rel_none (hnone ▸ h.held key)

theorem record (names : List String) : (Value.obj l).record? names = some ⟨first? l, false⟩ := by
  refine if_pos (List.all_eq_true.2 (fun n _ => ?_))
  simpa using occurrences_le_one h.keys n

theorem required (name : String) {w : Value} {read : Value → Option α} {a : α} (hw : first? members name = some w)
    (hread : Value.Finds read w a) : Record.required ⟨first? l, false⟩ name read = some a := by
  obtain ⟨v, hv, hreordered⟩ := h.field hw
  simp [Record.required, hv, hread v hreordered]

theorem optional (name : String) {f : α → Value} {read : Value → Option α} {o : Option α}
    (hw : first? members name = some (Value.ofOption f o)) (hnull : ∀ a ∈ o, f a ≠ .null)
    (hread : ∀ a ∈ o, Value.Finds read (f a) a) : Record.optional ⟨first? l, false⟩ name read = some o := by
  obtain ⟨v, hv, hreordered⟩ := h.field hw
  cases o with
  | none =>
    have hvoid : v = .null := Value.same_null.1 hreordered.1
    simp [Record.optional, hv, hvoid]
  | some a =>
    exact optional_of_some (hreordered.ne_null (hnull a rfl)) hv (hread a rfl v hreordered)

/-- a field that is not written when it is absent -/
theorem absentable (name : String) {f : α → Value} {read : Value → Option α} {o : Option α}
    (hw : first? members name = o.map f) (hnull : ∀ a ∈ o, f a ≠ .null) (hread : ∀ a ∈ o, Value.Finds read (f a) a) :
    Record.absentable ⟨first? l, false⟩ name read = some o := by
  cases o with
  | none => simp [Record.absentable, h.absent hw]
  | some a =>
    obtain ⟨v, hv, hreordered⟩ := h.field hw
    exact absentable_of_some (hreordered.ne_null (hnull a rfl)) hv (hread a rfl v hreordered)

theorem defaulted (name : String) {w : Value} {read : Value → Option α} {a : α} (standard : α)
    (hw : first? members name = some w) (hread : Value.Finds read w a) :
    Record.defaulted ⟨first? l, false⟩ name standard read = some a := by
  obtain ⟨v, hv, hreordered⟩ := h.field hw
  simp [Record.defaulted, hv, hread v hreordered]

/-- the member that names a variant is split off, the others stay -/
theorem tagged {tag : String} {name : String} {fields : List (String × Value)}
    (hmembers : members = (tag, .str name) :: fields) (hfields : first? fields tag = none) :
    ∃ rest, (Value.obj l).tagged? tag = some (.str name, .obj rest) ∧ Shows rest fields := by
  subst hmembers
  have hfirst : first? ((tag, .str name) :: fields) tag = some (.str name) := by rw [first?_cons, if_pos rfl]
  obtain ⟨v, hv, hreordered⟩ := h.field hfirst
  obtain rfl : v = .str name := Value.same_str.1 hreordered.1
  have honce : occurrences l tag = 1 := by
    have hmem := List.mem_map_of_mem (f := Prod.fst) (mem_of_first? hv)
    rw [occurrences_eq_count]
    exact List.count_eq_one_of_mem h.keys hmem
  refine ⟨l.filter (fun m => m.1 != tag), ?_, ?_, fun key => ?_⟩
  · simp [Value.tagged?, honce, hv]
  · exact h.keys.sublist (List.filter_sublist.map Prod.fst)
  · rw [first?_filter]
    by_cases hkey : tag = key
    · rw [if_pos hkey, ← hkey, hfields]
      exact .none
    · have hheld := h.held key
      rw [first?_cons, if_neg hkey] at hheld
      rwa [if_neg hkey]

end Shows

end RepoTutor.Json
