/-
Finite tables from text to values, held in strictly ascending key order.

A table is a list of entries together with the proof that its keys ascend, so a table is determined by its look-up
function (`ext_get?`) and two equal tables print alike. Keys are compared by code point, which is the order of their
UTF-8 bytes. Every operation is pinned down by one equation on `get?`.
-/

namespace RepoTutor

/-- entries whose keys ascend strictly -/
def Ascending {α : Type} (l : List (String × α)) : Prop :=
  l.Pairwise (fun a b => a.1 < b.1)

/-- a finite map from text to `α`, in ascending key order -/
structure Table (α : Type) where
  entries : List (String × α)
  ascending : Ascending entries

namespace Table

variable {α β : Type}

instance [DecidableEq α] : DecidableEq (Table α) := fun a b =>
  if h : a.entries = b.entries then
    isTrue (by cases a; cases b; simp_all)
  else
    isFalse (fun e => h (congrArg Table.entries e))

instance [Repr α] : Repr (Table α) := ⟨fun t n => reprPrec t.entries n⟩

/-- the table without entries -/
def empty : Table α := ⟨[], List.Pairwise.nil⟩

instance : Inhabited (Table α) := ⟨empty⟩

/-- value of the first entry with this key -/
def find (k : String) : List (String × α) → Option α
  | [] => none
  | (k', v) :: rest => if k' = k then some v else find k rest

/-- value stored under a key -/
def get? (t : Table α) (k : String) : Option α := find k t.entries

/-- whether a key has a value -/
def contains (t : Table α) (k : String) : Bool := (t.get? k).isSome

/-- keys in ascending order -/
def keys (t : Table α) : List String := t.entries.map (·.1)

/-- values in the order of their keys -/
def values (t : Table α) : List α := t.entries.map (·.2)

def size (t : Table α) : Nat := t.entries.length

def isEmpty (t : Table α) : Bool := t.entries.isEmpty

/-- put an entry at its place, replacing one with the same key -/
def place (k : String) (v : α) : List (String × α) → List (String × α)
  | [] => [(k, v)]
  | (k', v') :: rest =>
    if k < k' then (k, v) :: (k', v') :: rest
    else if k' = k then (k, v) :: rest
    else (k', v') :: place k v rest

theorem mem_place {k : String} {v : α} {e : String × α} {l : List (String × α)} :
    e ∈ place k v l → e = (k, v) ∨ e ∈ l := by
  induction l with
  | nil => simp [place]
  | cons hd tl ih =>
    obtain ⟨k', v'⟩ := hd
    simp only [place]
    split
    · simp
    · split
      · intro h
        rcases List.mem_cons.1 h with h | h
        · exact .inl h
        · exact .inr (List.mem_cons_of_mem _ h)
      · intro h
        rcases List.mem_cons.1 h with h | h
        · exact .inr (by simp [h])
        · exact (ih h).imp id (List.mem_cons_of_mem _)

theorem ascending_place (k : String) (v : α) {l : List (String × α)} (h : Ascending l) :
    Ascending (place k v l) := by
  induction l with
  | nil => simp [place, Ascending]
  | cons hd tl ih =>
    obtain ⟨k', v'⟩ := hd
    have hhd := (List.pairwise_cons.1 h).1
    have htl := (List.pairwise_cons.1 h).2
    simp only [place]
    split
    · rename_i hlt
      refine List.pairwise_cons.2 ⟨?_, h⟩
      intro e he
      rcases List.mem_cons.1 he with rfl | he
      · exact hlt
      · exact String.lt_trans hlt (hhd e he)
    · split
      · rename_i heq
        subst heq
        exact List.pairwise_cons.2 ⟨hhd, htl⟩
      · rename_i hnlt hne
        have hlt : k' < k := Std.lt_of_le_of_ne (String.not_lt.1 hnlt) hne
        refine List.pairwise_cons.2 ⟨?_, ih htl⟩
        intro e he
        rcases mem_place he with rfl | he
        · exact hlt
        · exact hhd e he

/-- the table with `v` under `k` -/
def insert (t : Table α) (k : String) (v : α) : Table α :=
  ⟨place k v t.entries, ascending_place k v t.ascending⟩

/-- entries that pass a test on key and value -/
def filter (t : Table α) (p : String → α → Bool) : Table α :=
  ⟨t.entries.filter (fun e => p e.1 e.2), t.ascending.filter _⟩

/-- the table without an entry for `k` -/
def erase (t : Table α) (k : String) : Table α := t.filter (fun k' _ => k' ≠ k)

theorem ascending_mapValues {l : List (String × α)} (f : String → α → β) (h : Ascending l) :
    Ascending (l.map (fun e => (e.1, f e.1 e.2))) :=
  List.Pairwise.map _ (fun _ _ hab => hab) h

/-- same keys, each value replaced -/
def map (t : Table α) (f : String → α → β) : Table β :=
  ⟨t.entries.map (fun e => (e.1, f e.1 e.2)), ascending_mapValues f t.ascending⟩

/-- same keys where `f` has an answer; the other entries are dropped -/
def filterMap (t : Table α) (f : String → α → Option β) : Table β :=
  ⟨t.entries.filterMap (fun e => (f e.1 e.2).map (fun v => (e.1, v))), by
    refine List.Pairwise.filterMap _ ?_ t.ascending
    intro a a' hlt b hb b' hb'
    obtain ⟨v, _, rfl⟩ := Option.map_eq_some_iff.1 hb
    obtain ⟨v', _, rfl⟩ := Option.map_eq_some_iff.1 hb'
    exact hlt⟩

/-- insert entries from left to right: the last value of a key stays -/
def insertAll (t : Table α) (l : List (String × α)) : Table α :=
  l.foldl (fun t e => t.insert e.1 e.2) t

/-- the table of a list of entries: the last value of a key stays -/
def ofList (l : List (String × α)) : Table α := empty.insertAll l

/-- a set of texts as a table -/
def ofKeys (l : List String) : Table Unit := ofList (l.map (fun k => (k, ())))

/-- whether some entry passes a test -/
def any (t : Table α) (p : String → α → Bool) : Bool := t.entries.any (fun e => p e.1 e.2)

/-- whether every entry passes a test -/
def all (t : Table α) (p : String → α → Bool) : Bool := t.entries.all (fun e => p e.1 e.2)

/-! ## Look-up -/

@[simp] theorem get?_empty (k : String) : (empty : Table α).get? k = none := rfl

theorem find_eq_none {k : String} {l : List (String × α)} (h : ∀ e ∈ l, e.1 ≠ k) : find k l = none := by
  induction l with
  | nil => rfl
  | cons hd tl ih =>
    obtain ⟨k', v'⟩ := hd
    have : k' ≠ k := h (k', v') (by simp)
    simp [find, this, ih (fun e he => h e (List.mem_cons_of_mem _ he))]

theorem find_place (k k' : String) (v : α) (l : List (String × α)) :
    find k' (place k v l) = if k = k' then some v else find k' l := by
  induction l with
  | nil => simp [place, find]
  | cons hd tl ih =>
    obtain ⟨k₀, v₀⟩ := hd
    simp only [place]
    split
    · simp [find]
    · split
      · rename_i heq
        subst heq
        by_cases h : k₀ = k' <;> simp [find, h]
      · rename_i hne
        by_cases h : k₀ = k'
        · subst h
          simp [find, Ne.symm hne]
        · simp [find, h, ih]

@[simp] theorem get?_insert (t : Table α) (k k' : String) (v : α) :
    (t.insert k v).get? k' = if k = k' then some v else t.get? k' :=
  find_place k k' v t.entries

theorem find_eq_some_iff {k : String} {v : α} {l : List (String × α)} (h : Ascending l) :
    find k l = some v ↔ (k, v) ∈ l := by
  induction l with
  | nil => simp [find]
  | cons hd tl ih =>
    obtain ⟨k', v'⟩ := hd
    have hhd := (List.pairwise_cons.1 h).1
    have htl := (List.pairwise_cons.1 h).2
    by_cases hk : k' = k
    · subst hk
      simp only [find, if_true, Option.some.injEq, List.mem_cons, Prod.mk.injEq, true_and]
      constructor
      · intro e; exact .inl e.symm
      · rintro (e | e)
        · exact e.symm
        · exact absurd (hhd _ e) (String.lt_irrefl _)
    · have hk' : k ≠ k' := Ne.symm hk
      simp [find, hk, hk', ih htl]

theorem get?_eq_some_iff {t : Table α} {k : String} {v : α} :
    t.get? k = some v ↔ (k, v) ∈ t.entries :=
  find_eq_some_iff t.ascending

theorem contains_iff_mem_keys {t : Table α} {k : String} : t.contains k = true ↔ k ∈ t.keys := by
  simp only [contains, Option.isSome_iff_exists, get?_eq_some_iff, keys, List.mem_map]
  constructor
  · rintro ⟨v, h⟩; exact ⟨(k, v), h, rfl⟩
  · rintro ⟨⟨k', v⟩, h, rfl⟩; exact ⟨v, h⟩

@[simp] theorem get?_filter (t : Table α) (p : String → α → Bool) (k : String) :
    (t.filter p).get? k = (t.get? k).filter (p k) := by
  apply Option.ext
  intro v
  rw [get?_eq_some_iff, Option.filter_eq_some_iff, get?_eq_some_iff]
  simp [filter]

@[simp] theorem get?_erase (t : Table α) (k k' : String) :
    (t.erase k).get? k' = if k = k' then none else t.get? k' := by
  rw [erase, get?_filter]
  by_cases h : k = k'
  · subst h; simp
  · have h' : k' ≠ k := Ne.symm h
    cases hg : t.get? k' <;> simp [h, h', Option.filter]

@[simp] theorem get?_map (t : Table α) (f : String → α → β) (k : String) :
    (t.map f).get? k = (t.get? k).map (f k) := by
  apply Option.ext
  intro v
  rw [get?_eq_some_iff, Option.map_eq_some_iff]
  simp only [map, List.mem_map, Prod.mk.injEq, get?_eq_some_iff]
  constructor
  · rintro ⟨⟨k', a⟩, h, rfl, rfl⟩; exact ⟨a, h, rfl⟩
  · rintro ⟨a, h, rfl⟩; exact ⟨(k, a), h, rfl, rfl⟩

@[simp] theorem get?_filterMap (t : Table α) (f : String → α → Option β) (k : String) :
    (t.filterMap f).get? k = (t.get? k).bind (f k) := by
  apply Option.ext
  intro v
  rw [get?_eq_some_iff, Option.bind_eq_some_iff]
  simp only [filterMap, List.mem_filterMap, Option.map_eq_some_iff, Prod.mk.injEq, get?_eq_some_iff]
  constructor
  · rintro ⟨⟨k', a⟩, h, b, hb, rfl, rfl⟩; exact ⟨a, h, hb⟩
  · rintro ⟨a, h, hb⟩; exact ⟨(k, a), h, v, hb, rfl, rfl⟩

/-! ## Extensionality -/

theorem entries_eq_of_mem {l₁ l₂ : List (String × α)} (h₁ : Ascending l₁) (h₂ : Ascending l₂)
    (h : ∀ e, e ∈ l₁ ↔ e ∈ l₂) : l₁ = l₂ := by
  induction l₁ generalizing l₂ with
  | nil =>
    cases l₂ with
    | nil => rfl
    | cons b _ => exact absurd ((h b).2 (by simp)) (by simp)
  | cons a as ih =>
    cases l₂ with
    | nil => exact absurd ((h a).1 (by simp)) (by simp)
    | cons b bs =>
      have ha := List.pairwise_cons.1 h₁
      have hb := List.pairwise_cons.1 h₂
      have hab : a = b := by
        rcases List.mem_cons.1 ((h a).1 (by simp)) with e | ma
        · exact e
        · rcases List.mem_cons.1 ((h b).2 (by simp)) with e | mb
          · exact e.symm
          · exact absurd (String.lt_trans (ha.1 b mb) (hb.1 a ma)) (String.lt_irrefl _)
      subst hab
      congr 1
      refine ih ha.2 hb.2 (fun e => ?_)
      constructor
      · intro he
        rcases List.mem_cons.1 ((h e).1 (List.mem_cons_of_mem _ he)) with rfl | m
        · exact absurd (ha.1 e he) (String.lt_irrefl _)
        · exact m
      · intro he
        rcases List.mem_cons.1 ((h e).2 (List.mem_cons_of_mem _ he)) with rfl | m
        · exact absurd (hb.1 e he) (String.lt_irrefl _)
        · exact m

/-- a table is its look-up function -/
theorem ext_get? {s t : Table α} (h : ∀ k, s.get? k = t.get? k) : s = t := by
  have : s.entries = t.entries := by
    refine entries_eq_of_mem s.ascending t.ascending (fun ⟨k, v⟩ => ?_)
    rw [← get?_eq_some_iff, ← get?_eq_some_iff, h k]
  cases s; cases t; simp_all

end Table

/-- the distinct texts of a list in ascending order -/
def ascendingKeys (l : List String) : List String := (Table.ofKeys l).keys

end RepoTutor
