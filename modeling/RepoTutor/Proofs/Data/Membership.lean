/-
Membership in tables, told through look-up: keys, values and the distinct keys of a list.

Results: a key stands in a table exactly when it has a value (`mem_keys`), no key stands twice (`nodup_keys`), and
`ascendingKeys` keeps the members of a list and drops repetitions (`mem_ascendingKeys`, `nodup_ascendingKeys`).
-/
import Mathlib.Data.List.Perm.Subperm
import RepoTutor.Data.Table

namespace RepoTutor

theorem nodup_of_ascending {l : List String} (h : l.Pairwise (· < ·)) : l.Nodup := by
  refine h.imp ?_
  rintro a _ hlt rfl
  exact String.lt_irrefl a hlt

namespace Table

variable {α : Type}

theorem contains_eq_true {t : Table α} {k : String} : t.contains k = true ↔ ∃ v, t.get? k = some v :=
  Option.isSome_iff_exists

theorem contains_of_get? {t : Table α} {k : String} {v : α} (h : t.get? k = some v) : t.contains k = true :=
  contains_eq_true.2 ⟨v, h⟩

theorem mem_keys {t : Table α} {k : String} : k ∈ t.keys ↔ ∃ v, t.get? k = some v :=
  contains_iff_mem_keys.symm.trans contains_eq_true

theorem mem_values {t : Table α} {v : α} : v ∈ t.values ↔ ∃ k, t.get? k = some v := by
  simp only [values, List.mem_map, get?_eq_some_iff]
  constructor
  · rintro ⟨⟨k, v'⟩, h, rfl⟩
    exact ⟨k, h⟩
  · rintro ⟨k, h⟩
    exact ⟨(k, v), h, rfl⟩

theorem pairwise_keys (t : Table α) : t.keys.Pairwise (· < ·) := List.Pairwise.map _ (fun _ _ h => h) t.ascending

theorem nodup_keys (t : Table α) : t.keys.Nodup := nodup_of_ascending t.pairwise_keys

theorem length_keys (t : Table α) : t.keys.length = t.size := by simp [keys, size]

theorem contains_insert (t : Table α) (k k' : String) (v : α) :
    (t.insert k v).contains k' = true ↔ k = k' ∨ t.contains k' = true := by
  rw [contains, get?_insert]
  by_cases h : k = k'
  · simp [h]
  · simp [h, contains]

theorem isEmpty_iff {t : Table α} : t.isEmpty = true ↔ ∀ k, t.get? k = none := by
  simp only [isEmpty, List.isEmpty_iff]
  constructor
  · intro h k
    rw [get?, h, find]
  · intro h
    refine List.eq_nil_iff_forall_not_mem.2 (fun e he => ?_)
    have hk := h e.1
    rw [get?_eq_some_iff.2 he] at hk
    exact absurd hk (by simp)

/-- inserting what is stored already changes nothing -/
theorem insert_eq_self {t : Table α} {k : String} {v : α} (h : t.get? k = some v) : t.insert k v = t := by
  refine ext_get? (fun k' => ?_)
  rw [get?_insert]
  by_cases hk : k = k'
  · subst hk
    rw [if_pos rfl, h]
  · rw [if_neg hk]

/-- different keys are inserted in either order -/
theorem insert_comm {t : Table α} {k k' : String} (h : k ≠ k') (v v' : α) :
    (t.insert k v).insert k' v' = (t.insert k' v').insert k v := by
  refine ext_get? (fun key => ?_)
  simp only [get?_insert]
  by_cases hk' : k' = key
  · rw [if_pos hk', if_neg (fun hk => h (hk.trans hk'.symm)), if_pos hk']
  · rw [if_neg hk', if_neg hk']

theorem place_perm {k : String} (v : α) {l : List (String × α)} (h : find k l = none) :
    (place k v l).Perm ((k, v) :: l) := by
  induction l with
  | nil => exact .refl _
  | cons e l ih =>
    obtain ⟨k', v'⟩ := e
    have hne : k' ≠ k := by
      rintro rfl
      simp [find] at h
    have hrest : find k l = none := by simpa [find, hne] using h
    simp only [place, if_neg hne]
    split
    · exact .refl _
    · exact ((ih hrest).cons _).trans (.swap _ _ _)

/-- a new key adds its value to the others -/
theorem values_insert_perm {t : Table α} {k : String} (v : α) (h : t.get? k = none) :
    (t.insert k v).values.Perm (v :: t.values) :=
  (place_perm v h).map Prod.snd

theorem contains_insertAll (l : List (String × α)) (t : Table α) (k : String) :
    (t.insertAll l).contains k = true ↔ t.contains k = true ∨ k ∈ l.map (·.1) := by
  induction l generalizing t with
  | nil => simp [insertAll]
  | cons e l ih =>
    have := ih (t.insert e.1 e.2)
    rw [contains_insert] at this
    simp only [insertAll, List.foldl_cons, List.map_cons, List.mem_cons] at this ⊢
    rw [this]
    constructor
    · rintro ((h | h) | h)
      · exact Or.inr (Or.inl h.symm)
      · exact Or.inl h
      · exact Or.inr (Or.inr h)
    · rintro (h | h | h)
      · exact Or.inl (Or.inr h)
      · exact Or.inl (Or.inl h.symm)
      · exact Or.inr h

/-- ascending entries are all found after they have been inserted -/
theorem get?_insertAll {l : List (String × α)} (h : Ascending l) (t : Table α) (k : String) :
    (t.insertAll l).get? k = (find k l).or (t.get? k) := by
  induction l generalizing t with
  | nil => rfl
  | cons e l ih =>
    obtain ⟨k', v⟩ := e
    have hrest := List.pairwise_cons.1 h
    show ((t.insert k' v).insertAll l).get? k = _
    rw [ih hrest.2, get?_insert, find]
    by_cases hk : k' = k
    · subst hk
      -- the rest lies after this key
      rw [find_eq_none (fun e he heq => String.lt_irrefl _ (heq ▸ hrest.1 e he))]
      simp
    · simp [hk]

theorem ofList_entries (t : Table α) : ofList t.entries = t := by
  refine ext_get? (fun k => ?_)
  rw [ofList, get?_insertAll t.ascending, get?_empty, Option.or_none]
  rfl

/-- entries are inserted in their order, so the last one of a key is found -/
theorem get?_ofList (l : List (String × α)) (k : String) :
    (ofList l).get? k = (l.reverse.find? (fun e => e.1 == k)).map (·.2) := by
  have hall : ∀ t : Table α,
      (t.insertAll l).get? k = ((l.reverse.find? (fun e => e.1 == k)).map (·.2)).or (t.get? k) := by
    induction l with
    | nil => exact fun t => rfl
    | cons e l ih =>
      intro t
      show ((t.insert e.1 e.2).insertAll l).get? k = _
      rw [ih, get?_insert, List.reverse_cons, List.find?_append]
      cases l.reverse.find? (fun e => e.1 == k) with
      | some found => rfl
      | none => by_cases hk : e.1 = k <;> simp [hk]
  rw [ofList, hall, get?_empty, Option.or_none]

/-- what is found after entries have been inserted is one of them or was there before -/
theorem mem_of_get?_insertAll {l : List (String × α)} {t : Table α} {k : String} {v : α}
    (h : (t.insertAll l).get? k = some v) : (k, v) ∈ l ∨ t.get? k = some v := by
  induction l generalizing t with
  | nil => exact Or.inr h
  | cons e l ih =>
    rcases ih (t := t.insert e.1 e.2) h with h | h
    · exact Or.inl (List.mem_cons_of_mem _ h)
    · rw [get?_insert] at h
      split at h
      · rename_i hk
        rw [← hk, ← Option.some.inj h]
        exact Or.inl List.mem_cons_self
      · exact Or.inr h

theorem mem_of_get?_ofList {l : List (String × α)} {k : String} {v : α} (h : (ofList l).get? k = some v) :
    (k, v) ∈ l :=
  (mem_of_get?_insertAll h).resolve_right (by simp)

/-! ### Growing tables -/

/-- every entry of `t` is one of `t'` -/
def Extends (t t' : Table α) : Prop := ∀ k v, t.get? k = some v → t'.get? k = some v

theorem Extends.refl (t : Table α) : Extends t t := fun _ _ h => h

theorem Extends.trans {t t' t'' : Table α} (h : Extends t t') (h' : Extends t' t'') : Extends t t'' :=
  fun k v hk => h' k v (h k v hk)

theorem Extends.contains {t t' : Table α} (h : t.Extends t') {k : String} (hk : t.contains k = true) :
    t'.contains k = true := by
  obtain ⟨v, hv⟩ := contains_eq_true.1 hk
  exact contains_of_get? (h k v hv)

theorem Extends.keys_subset {t t' : Table α} (h : Extends t t') : t.keys ⊆ t'.keys := by
  intro k hk
  obtain ⟨v, hv⟩ := mem_keys.1 hk
  exact mem_keys.2 ⟨v, h k v hv⟩

theorem size_le_of_keys_subset {β : Type} {t : Table α} {t' : Table β} (h : t.keys ⊆ t'.keys) : t.size ≤ t'.size := by
  rw [← length_keys, ← length_keys]
  exact (t.nodup_keys.subperm h).length_le

/-- a table that has no more entries than one whose keys it has, has no more keys either -/
theorem keys_subset_of_size_le {β : Type} {t : Table α} {t' : Table β} (h : t.keys ⊆ t'.keys)
    (hsize : t'.size ≤ t.size) : t'.keys ⊆ t.keys := by
  rw [← length_keys, ← length_keys] at hsize
  exact ((t.nodup_keys.subperm h).perm_of_length_le hsize).symm.subset

end Table

theorem mem_ascendingKeys {l : List String} {k : String} : k ∈ ascendingKeys l ↔ k ∈ l := by
  rw [ascendingKeys, ← Table.contains_iff_mem_keys, Table.ofKeys, Table.ofList, Table.contains_insertAll]
  simp [Table.contains, Function.comp_def]

/-- lists with the same members have the same distinct keys -/
theorem ascendingKeys_congr {l l' : List String} (h : ∀ k, k ∈ l ↔ k ∈ l') : ascendingKeys l = ascendingKeys l' := by
  have hsame : Table.ofKeys l = Table.ofKeys l' := by
    refine Table.ext_get? (fun k => Option.ext (fun u => ?_))
    have hget : ∀ l, (Table.ofKeys l).get? k = some u ↔ k ∈ l := fun l =>
      ⟨fun hu => mem_ascendingKeys.1 (Table.mem_keys.2 ⟨u, hu⟩),
        fun hk => (Table.mem_keys.1 (mem_ascendingKeys.2 hk)).elim (fun _ hu => hu)⟩
    rw [hget, hget, h]
  rw [ascendingKeys, hsame, ascendingKeys]

theorem nodup_ascendingKeys (l : List String) : (ascendingKeys l).Nodup := Table.nodup_keys _

/-- strictly ascending lists are told by their members -/
theorem eq_of_ascending {l l' : List String} (h : l.Pairwise (· < ·)) (h' : l'.Pairwise (· < ·))
    (hmem : ∀ k, k ∈ l ↔ k ∈ l') : l = l' := by
  have hperm : l.Perm l' :=
    (List.perm_ext_iff_of_nodup (nodup_of_ascending h) (nodup_of_ascending h')).2 hmem
  exact hperm.eq_of_pairwise (fun a b _ _ hab hba => absurd (String.lt_trans hab hba) (String.lt_irrefl a)) h h'

end RepoTutor
