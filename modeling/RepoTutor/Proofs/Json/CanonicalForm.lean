/-
The canonical form stands for a value without the order of its members.

`Same` is equality of values whose objects are maps: under each key stands what its last member holds, and the order of
members does not count, while the order of items does. Sorting the members by key at every depth keeps what stands under
each key (`get?_canonicalMembers`), so two values have one canonical form exactly when they are equal in this sense
(`canonical_eq_iff`). Lists of texts and tables of texts are equal as values only when they are equal as such
(`same_ofStrings`, `same_textTable`).
-/
import RepoTutor.Proofs.Data.Membership
import RepoTutor.Json.Value
import Mathlib.Data.List.Forall2

namespace RepoTutor.Json.Value

/-! ## Values from their parts -/

/-- what holds of a value as soon as it holds of its parts -/
@[elab_as_elim]
theorem parts_induction {P : Value → Prop} (null : P null) (bool : ∀ b, P (bool b)) (num : ∀ n, P (num n))
    (str : ∀ s, P (str s)) (arr : ∀ items, (∀ v ∈ items, P v) → P (arr items))
    (obj : ∀ members, (∀ m ∈ members, P m.2) → P (obj members)) (v : Value) : P v :=
  Value.rec (motive_1 := P) (motive_2 := fun l => ∀ v ∈ l, P v) (motive_3 := fun l => ∀ m ∈ l, P m.2)
    (motive_4 := fun m => P m.2) null bool num str arr obj (fun _ h => nomatch h)
    (fun _ _ hhead htail => List.forall_mem_cons.2 ⟨hhead, htail⟩) (fun _ h => nomatch h)
    (fun _ _ hhead htail => List.forall_mem_cons.2 ⟨hhead, htail⟩) (fun _ _ h => h) v

theorem canonicalItems_eq (items : List Value) : canonicalItems items = items.map canonical := by
  induction items with
  | nil => rfl
  | cons v items ih => simp [canonicalItems, ih]

theorem canonicalMembers_eq (members : List (String × Value)) :
    canonicalMembers members = members.map (fun m => (m.1, m.2.canonical)) := by
  induction members with
  | nil => rfl
  | cons m members ih => simp [canonicalMembers, ih]

/-! ## What stands under a key -/

theorem mem_of_member? {members : List (String × Value)} {key : String} {v : Value}
    (h : (obj members).member? key = some v) : (key, v) ∈ members := by
  obtain ⟨m, hfind, rfl⟩ := Option.map_eq_some_iff.1 h
  have hkey : m.1 = key := by simpa using List.find?_some hfind
  rw [← hkey]
  exact List.mem_reverse.1 (List.mem_of_find?_eq_some hfind)

/-- the canonical form has the same members, in canonical form -/
theorem get?_canonicalMembers (members : List (String × Value)) (key : String) :
    (Table.ofList (canonicalMembers members)).get? key = ((obj members).member? key).map canonical := by
  rw [canonicalMembers_eq, Table.get?_ofList, ← List.map_reverse, List.find?_map, member?, Option.map_map,
    Option.map_map]
  rfl

theorem canonical_obj_eq_iff (members members' : List (String × Value)) :
    (obj members).canonical = (obj members').canonical ↔
      ∀ key, ((obj members).member? key).map canonical = ((obj members').member? key).map canonical := by
  simp only [canonical, obj.injEq, ← get?_canonicalMembers]
  constructor
  · intro h key
    rw [Table.get?, h, Table.get?]
  · intro h
    rw [Table.ext_get? h]

theorem member?_ofTable {α : Type} (f : α → Value) (t : Table α) (key : String) :
    (ofTable f t).member? key = (t.get? key).map f := by
  have hget := Table.get?_ofList t.entries key
  rw [Table.ofList_entries] at hget
  rw [ofTable, member?, ← List.map_reverse, List.find?_map, Option.map_map, hget, Option.map_map]
  rfl

/-! ## Objects without an order -/

/-- equal values, objects being maps from keys to values -/
inductive Same : Value → Value → Prop where
  | null : Same null null
  | bool (b : Bool) : Same (bool b) (bool b)
  | num (n : Number) : Same (num n) (num n)
  | str (s : String) : Same (str s) (str s)
  | arr {items items' : List Value} (h : List.Forall₂ Same items items') : Same (arr items) (arr items')
  /-- under every key of both, or of none, stand equal values -/
  | obj {members members' : List (String × Value)}
      (h : ∀ key, Option.Rel Same ((obj members).member? key) ((obj members').member? key)) :
      Same (obj members) (obj members')

@[simp] theorem same_null {w : Value} : Same null w ↔ w = null :=
  ⟨fun h => by cases h; rfl, fun h => h ▸ .null⟩

@[simp] theorem same_bool {b : Bool} {w : Value} : Same (bool b) w ↔ w = bool b :=
  ⟨fun h => by cases h; rfl, fun h => h ▸ .bool b⟩

@[simp] theorem same_num {n : Number} {w : Value} : Same (num n) w ↔ w = num n :=
  ⟨fun h => by cases h; rfl, fun h => h ▸ .num n⟩

@[simp] theorem same_str {s : String} {w : Value} : Same (str s) w ↔ w = str s :=
  ⟨fun h => by cases h; rfl, fun h => h ▸ .str s⟩

theorem same_arr {items items' : List Value} : Same (arr items) (arr items') ↔ List.Forall₂ Same items items' :=
  ⟨fun h => by cases h; assumption, .arr⟩

theorem same_obj {members members' : List (String × Value)} :
    Same (obj members) (obj members') ↔
      ∀ key, Option.Rel Same ((obj members).member? key) ((obj members').member? key) :=
  ⟨fun h => by cases h; assumption, .obj⟩

section Images

variable {f : Value → Value}

theorem map_eq_map_iff_forall₂ {l l' : List Value} (h : ∀ v ∈ l, ∀ w, f v = f w ↔ Same v w) :
    l.map f = l'.map f ↔ List.Forall₂ Same l l' := by
  induction l generalizing l' with
  | nil => simp [eq_comm]
  | cons v l ih =>
    obtain ⟨hv, hl⟩ := List.forall_mem_cons.1 h
    cases l' with
    | nil => simp
    | cons w l' => simp [hv w, ih hl]

theorem map_eq_map_iff_rel {a b : Option Value} (h : ∀ v, a = some v → ∀ w, f v = f w ↔ Same v w) :
    a.map f = b.map f ↔ Option.Rel Same a b := by
  cases a with
  | none =>
    cases b with
    | none => exact ⟨fun _ => .none, fun _ => rfl⟩
    | some w => exact ⟨nofun, nofun⟩
  | some v =>
    cases b with
    | none => exact ⟨nofun, nofun⟩
    | some w =>
      rw [Option.map_some, Option.map_some, Option.some.injEq, h v rfl w]
      exact ⟨.some, fun h => by cases h; assumption⟩

end Images

/-- **Canonical forms are equal for equal values and for no others.** -/
theorem canonical_eq_iff {v w : Value} : v.canonical = w.canonical ↔ Same v w := by
  induction v using parts_induction generalizing w with
  | null => cases w <;> simp [canonical]
  | bool b => cases w <;> simp [canonical, eq_comm]
  | num n => cases w <;> simp [canonical, eq_comm]
  | str s => cases w <;> simp [canonical, eq_comm]
  | arr items ih =>
    cases w with
    | arr items' =>
      rw [same_arr, ← map_eq_map_iff_forall₂ (fun v hv w => ih v hv)]
      simp [canonical, canonicalItems_eq]
    | _ => exact ⟨fun h => by simp [canonical] at h, nofun⟩
  | obj members ih =>
    cases w with
    | obj members' =>
      rw [same_obj, canonical_obj_eq_iff]
      refine forall_congr' (fun key => map_eq_map_iff_rel (fun v hv w => ?_))
      exact ih (key, v) (mem_of_member? hv)
    | _ => exact ⟨fun h => by simp [canonical] at h, nofun⟩

theorem same_refl (v : Value) : Same v v := canonical_eq_iff.1 rfl

/-! ## Records, lists and tables -/

/-- what stands under one key of equal objects is equal -/
theorem same_of_member? {members members' : List (String × Value)} (h : Same (obj members) (obj members'))
    (key : String) {v w : Value} (hv : (obj members).member? key = some v) (hw : (obj members').member? key = some w) :
    Same v w := by
  have hrel := same_obj.1 h key
  rw [hv, hw] at hrel
  cases hrel
  assumption

theorem same_ofNat {n m : Nat} : Same (ofNat n) (ofNat m) ↔ n = m := by
  simp only [ofNat, same_num, num.injEq, Number.whole.injEq]
  omega

theorem same_ofStrings {l l' : List String} : Same (ofStrings l) (ofStrings l') ↔ l = l' := by
  rw [ofStrings, ofStrings, same_arr, List.forall₂_map_left_iff, List.forall₂_map_right_iff]
  simp [eq_comm, List.forall₂_eq_eq_eq]

theorem rel_map_str {a b : Option String} : Option.Rel Same (a.map str) (b.map str) ↔ a = b := by
  constructor
  · intro h
    cases a <;> cases b <;> cases h
    · rfl
    · rename_i h
      rw [str.inj (same_str.1 h)]
  · rintro rfl
    cases a with
    | none => exact .none
    | some s => exact .some (.str s)

theorem same_textTable {t t' : Table String} : Same (ofTable .str t) (ofTable .str t') ↔ t = t' := by
  have hlookup : Same (ofTable .str t) (ofTable .str t') ↔ ∀ key, t.get? key = t'.get? key := by
    refine same_obj.trans (forall_congr' (fun key => ?_))
    rw [← ofTable, ← ofTable, member?_ofTable, member?_ofTable, rel_map_str]
  rw [hlookup]
  exact ⟨Table.ext_get?, fun h key => h ▸ rfl⟩

end RepoTutor.Json.Value
