/-
What a configuration file comes to, key by key.

Members are accepted as a whole when each field is accepted by itself (`accepted_iff`), and the configuration has for
every key its member or else the default (`get?_ofMembers`). Accepted members are read back from their text
(`readMembers_pretty`). Setting a key puts in one member (`set_eq_ok`), so the new file holds the old keys and this one
(`set_members`), other keys keep their values (`set_others`), and two keys may be set in either order (`set_comm`).
-/
import RepoTutor.Proofs.Json.CanonicalForm
import RepoTutor.Proofs.Json.RoundTrip
import RepoTutor.Proofs.Data.Except
import RepoTutor.Workspace.Config

namespace RepoTutor.Workspace.Config

open Json (Value)

/-! ## Fields -/

theorem textFault?_eq_none {expected : String} {v : Value} : textFault? expected v = none ↔ ∃ s, v = .str s := by
  cases v <;> simp [textFault?]

theorem numberFault?_eq_none {bound : Nat} {expected : String} {v : Value} :
    numberFault? bound expected v = none ↔ ∃ n, n < bound ∧ v = Value.ofNat n := by
  unfold numberFault?
  split
  · rename_i n
    simp only [Value.ofNat, Value.num.injEq, Json.Number.whole.injEq, ite_eq_left_iff, reduceCtorEq, imp_false,
      Classical.not_not]
    constructor
    · rintro ⟨hpos, hbound⟩
      exact ⟨n.toNat, by omega, by omega⟩
    · rintro ⟨m, hm, rfl⟩
      omega
  · rename_i hwhole
    simp only [reduceCtorEq, false_iff]
    rintro ⟨n, -, rfl⟩
    exact hwhole n rfl

/-- a member without fault is a text or a number of 32 bits -/
theorem fieldFault?_eq_none {key : String} {v : Value} (h : fieldFault? key v = none) :
    (∃ s, v = .str s) ∨ ∃ n, n < wordCount 32 ∧ v = Value.ofNat n := by
  unfold fieldFault? at h
  split at h
  · exact Or.inl (textFault?_eq_none.1 h)
  · exact Or.inl (textFault?_eq_none.1 h)
  · exact Or.inl (textFault?_eq_none.1 h)
  · exact Or.inl (textFault?_eq_none.1 h)
  · obtain ⟨n, hn, rfl⟩ := numberFault?_eq_none.1 h
    exact Or.inr ⟨n, Nat.lt_trans hn (by decide), rfl⟩
  · exact Or.inr (numberFault?_eq_none.1 h)
  · cases h

theorem known_of_fieldFault?_eq_none {key : String} {v : Value} (h : fieldFault? key v = none) : key ∈ fieldNames := by
  unfold fieldFault? at h
  split at h
  all_goals first
    | cases h
    | simp [fieldNames]

/-- a member of text, or the default -/
theorem textOf_eq {members : Table Value} {name : String} (h : ∀ v, members.get? name = some v → ∃ s, v = .str s)
    (standard : String) : some (Value.str (textOf members name standard))
      = (members.get? name).or (some (.str standard)) := by
  unfold textOf
  cases hv : members.get? name with
  | none => rfl
  | some v =>
    obtain ⟨s, rfl⟩ := h v hv
    rfl

/-- a member that is a number, or the default -/
theorem numberOf_eq {members : Table Value} {name : String}
    (h : ∀ v, members.get? name = some v → ∃ n, n < wordCount 32 ∧ v = Value.ofNat n) (standard : Nat) :
    some (Value.ofNat (numberOf members name standard)) = (members.get? name).or (some (Value.ofNat standard)) := by
  unfold numberOf
  cases hv : members.get? name with
  | none => rfl
  | some v =>
    obtain ⟨n, hn, rfl⟩ := h v hv
    simp [Value.ofNat, Value.natBelow?, hn]

/-! ## Whole configurations -/

theorem validate_eq_ok {c c' : Config} :
    c.validate = .ok c' ↔ c' = c ∧ Command.checkBranchName "config" c.defaultBranch = .ok () ∧ c.saveAttempts ≠ 0
      ∧ Text.isBlankText c.bind = false := by
  unfold validate
  split
  · rename_i e he
    simp [he]
  · rename_i hbranch
    rw [hbranch]
    by_cases hattempts : c.saveAttempts = 0
    · simp [hattempts]
    · cases hbind : Text.isBlankText c.bind <;> simp [hattempts, eq_comm]

theorem ofMembers_eq_ok {members : Table Value} {c : Config} :
    ofMembers members = .ok c ↔ (∀ key v, members.get? key = some v → fieldFault? key v = none)
      ∧ (ofTable members).validate = .ok c := by
  unfold ofMembers
  have hfaults : members.entries.findSome? (fun m => fieldFault? m.1 m.2) = none ↔
      ∀ key v, members.get? key = some v → fieldFault? key v = none := by
    rw [List.findSome?_eq_none_iff]
    exact ⟨fun h key v hv => h (key, v) (Table.get?_eq_some_iff.1 hv),
      fun h m hm => h m.1 m.2 (Table.get?_eq_some_iff.2 hm)⟩
  split
  · rename_i fault hfault
    rw [← hfaults, hfault]
    simp
  · rename_i hnone
    rw [← hfaults, hnone]
    simp

/-- members that come to a configuration -/
def Accepted (members : Table Value) : Prop := ∃ c, ofMembers members = .ok c

theorem accepted_iff_checks {members : Table Value} :
    Accepted members ↔ (∀ key v, members.get? key = some v → fieldFault? key v = none)
      ∧ Command.checkBranchName "config" (ofTable members).defaultBranch = .ok ()
      ∧ (ofTable members).saveAttempts ≠ 0 ∧ Text.isBlankText (ofTable members).bind = false := by
  simp [Accepted, ofMembers_eq_ok, validate_eq_ok]

/-- what is asked of a field, given its member if there is one -/
structure FieldAccepted (key : String) (member : Option Value) : Prop where
  typed : ∀ v, member = some v → fieldFault? key v = none
  branch : key = "default_branch" →
    Command.checkBranchName "config" ((member.bind Value.str?).getD ({} : Config).defaultBranch) = .ok ()
  attempts : key = "save_attempts" →
    (member.bind (Value.natBelow? (wordCount 32))).getD ({} : Config).saveAttempts ≠ 0
  address : key = "bind" → Text.isBlankText ((member.bind Value.str?).getD ({} : Config).bind) = false

/-- **Members are accepted field by field.** -/
theorem accepted_iff {members : Table Value} : Accepted members ↔ ∀ key, FieldAccepted key (members.get? key) := by
  rw [accepted_iff_checks]
  constructor
  · rintro ⟨htyped, hbranch, hattempts, hbind⟩ key
    refine ⟨htyped key, ?_, ?_, ?_⟩
    · rintro rfl
      exact hbranch
    · rintro rfl
      exact hattempts
    · rintro rfl
      exact hbind
  · intro h
    exact ⟨fun key => (h key).typed, (h "default_branch").branch rfl, (h "save_attempts").attempts rfl,
      (h "bind").address rfl⟩

theorem get?_unknown {key : String} (h : key ∉ fieldNames) (c : Config) : c.get? key = none := by
  refine Option.eq_none_iff_forall_ne_some.2 (fun v hv => h ?_)
  have hmem := Value.mem_of_member? hv
  simp only [List.mem_cons, Prod.mk.injEq, List.not_mem_nil, or_false] at hmem
  rcases hmem with ⟨rfl, -⟩ | ⟨rfl, -⟩ | ⟨rfl, -⟩ | ⟨rfl, -⟩ | ⟨rfl, -⟩ | ⟨rfl, -⟩ <;> simp [fieldNames]

/-- where one member and then another were accepted, the other one is accepted first if all are -/
theorem accepted_insert_iff {members : Table Value} {key key' : String} {v v' : Value} (hkeys : key ≠ key')
    (hfirst : Accepted (members.insert key v)) (hboth : Accepted ((members.insert key v).insert key' v')) :
    Accepted (members.insert key' v') ↔ Accepted members := by
  rw [accepted_iff] at hfirst hboth
  rw [accepted_iff, accepted_iff]
  constructor
  · intro h k
    by_cases hk : key = k
    · subst hk
      simpa [hkeys.symm] using h key
    · simpa [hk] using hfirst k
  · intro h k
    by_cases hk : key' = k
    · subst hk
      simpa using hboth key'
    · simpa [hk] using h k

/-- **A key has its member as value, or else the default.** -/
theorem get?_ofMembers {members : Table Value} {c : Config} (h : ofMembers members = .ok c) (key : String) :
    c.get? key = (members.get? key).or (({} : Config).get? key) := by
  obtain ⟨htyped, hvalid⟩ := ofMembers_eq_ok.1 h
  obtain ⟨rfl, -⟩ := validate_eq_ok.1 hvalid
  have htext : ∀ name standard, (∀ v, fieldFault? name v = none → ∃ s, v = .str s) →
      some (Value.str (textOf members name standard)) = (members.get? name).or (some (.str standard)) :=
    fun name standard hname => textOf_eq (fun v hv => hname v (htyped name v hv)) standard
  have hnumber : ∀ name standard, (∀ v, fieldFault? name v = none → ∃ n, n < wordCount 32 ∧ v = Value.ofNat n) →
      some (Value.ofNat (numberOf members name standard)) = (members.get? name).or (some (.ofNat standard)) :=
    fun name standard hname => numberOf_eq (fun v hv => hname v (htyped name v hv)) standard
  by_cases hknown : key ∈ fieldNames
  · simp only [fieldNames, List.mem_cons, List.not_mem_nil, or_false] at hknown
    rcases hknown with rfl | rfl | rfl | rfl | rfl | rfl
    · exact htext "default_branch" "main" (fun v => textFault?_eq_none.1)
    · exact htext "store_path" ".gitdojo/store.db" (fun v => textFault?_eq_none.1)
    · exact htext "practices_dir" "practices" (fun v => textFault?_eq_none.1)
    · exact htext "bind" "127.0.0.1" (fun v => textFault?_eq_none.1)
    · refine hnumber "port" 7878 (fun v hv => ?_)
      obtain ⟨n, hn, rfl⟩ := numberFault?_eq_none.1 hv
      exact ⟨n, Nat.lt_trans hn (by decide), rfl⟩
    · exact hnumber "save_attempts" 3 (fun v => numberFault?_eq_none.1)
  · have hmember : members.get? key = none :=
      Option.eq_none_iff_forall_ne_some.2 (fun v hv => hknown (known_of_fieldFault?_eq_none (htyped key v hv)))
    rw [hmember, get?_unknown hknown, get?_unknown hknown]
    rfl

/-! ## The file -/

theorem parse_eq_ok {text : String} {v : Value} (h : Value.parse? text = some v) : Value.parse text = .ok v := by
  unfold Value.parse? at h
  unfold Value.parse
  cases htext : Json.wholeText text.toList with
  | error e => simp [htext, Except.toOption] at h
  | ok w =>
    rw [htext] at h
    cases h
    rfl

theorem fieldFault?_readable {key : String} {v : Value} (h : fieldFault? key v = none) (depth : Nat) :
    Value.Readable depth v ∧ v.canonical = v := by
  rcases fieldFault?_eq_none h with ⟨s, rfl⟩ | ⟨n, hn, rfl⟩
  · exact ⟨.str depth s, rfl⟩
  · exact ⟨.nat depth (Nat.lt_trans hn (by decide)), rfl⟩

/-- **Accepted members are read back from their text.** -/
theorem readMembers_pretty (path : String) {members : Table Value} (h : Accepted members) :
    readMembers path (some (Value.obj members.entries).pretty) = .ok members := by
  have hplain : ∀ m ∈ members.entries, ∀ depth, Value.Readable depth m.2 ∧ m.2.canonical = m.2 :=
    fun m hm => fieldFault?_readable ((accepted_iff_checks.1 h).1 m.1 m.2 (Table.get?_eq_some_iff.2 hm))
  have hread : Value.parse? (Value.obj members.entries).pretty = some (.obj members.entries) :=
    Json.parse?_pretty (.obj (fun m hm => (hplain m hm _).1))
  have hcanonical : (Value.obj members.entries).canonical = .obj members.entries := by
    have hmembers : Value.canonicalMembers members.entries = members.entries := by
      rw [Value.canonicalMembers_eq]
      conv_rhs => rw [← List.map_id members.entries]
      exact List.map_congr_left (fun m hm => Prod.ext rfl (hplain m hm 0).2)
    rw [Value.canonical, hmembers, Table.ofList_entries]
  simp only [readMembers, parse_eq_ok hread, hcanonical, Table.ofList_entries]

theorem load_eq_ok {path : String} {file : FileText} {c : Config} :
    load path file = .ok c ↔ ∃ members, readMembers path file = .ok members ∧ ofMembers members = .ok c := by
  simp only [load, Except.bind_eq_ok, Except.mapError_eq_ok]

/-! ## Setting a key -/

theorem set_eq_ok {path : String} {file : FileText} {key text : String} {c : Config} {new : String} :
    set path file key text = .ok (c, new) ↔ ∃ current members, ({} : Config).get? key = some current
      ∧ readMembers path file = .ok members ∧ ofMembers (members.insert key (valueFor current text)) = .ok c
      ∧ new = (Value.obj (members.insert key (valueFor current text)).entries).pretty := by
  unfold set
  cases ({} : Config).get? key with
  | none => simp
  | some current =>
    simp only [Except.bind_eq_ok, Except.mapError_eq_ok, Option.some.injEq, exists_and_left, exists_eq_left']
    refine exists_congr (fun members => and_congr_right (fun _ => ?_))
    constructor
    · rintro ⟨c', hc, hnew⟩
      cases hnew
      exact ⟨hc, rfl⟩
    · rintro ⟨hc, rfl⟩
      exact ⟨c, hc, rfl⟩

/-- a new file comes to the configuration that setting came to -/
theorem set_load {path : String} {file : FileText} {key text : String} {c : Config} {new : String}
    (h : set path file key text = .ok (c, new)) : load path (some new) = .ok c := by
  obtain ⟨current, members, -, -, hc, rfl⟩ := set_eq_ok.1 h
  exact load_eq_ok.2 ⟨_, readMembers_pretty path ⟨c, hc⟩, hc⟩

/-- a new file holds the keys of the old one and the one that was set -/
theorem set_members {path : String} {file : FileText} {key text : String} {c : Config} {new : String}
    (h : set path file key text = .ok (c, new)) : ∃ old members, readMembers path file = .ok old
      ∧ readMembers path (some new) = .ok members
      ∧ ∀ k, members.contains k = true ↔ old.contains k = true ∨ k = key := by
  obtain ⟨current, old, -, hold, hc, rfl⟩ := set_eq_ok.1 h
  refine ⟨old, _, hold, readMembers_pretty path ⟨c, hc⟩, fun k => ?_⟩
  rw [Table.contains_insert, or_comm, @eq_comm _ key k]

/-- other keys keep their values -/
theorem set_others {path : String} {file : FileText} {key text : String} {c before : Config} {new : String}
    (h : set path file key text = .ok (c, new)) (hload : load path file = .ok before) {k : String} (hk : k ≠ key) :
    c.get? k = before.get? k := by
  obtain ⟨current, members, -, hmembers, hc, -⟩ := set_eq_ok.1 h
  obtain ⟨members', hmembers', hbefore⟩ := load_eq_ok.1 hload
  obtain rfl : members = members' := Except.ok.inj (hmembers.symm.trans hmembers')
  rw [get?_ofMembers hc, get?_ofMembers hbefore, Table.get?_insert, if_neg hk.symm]

section Order

variable {path key key' text text' : String} {file : FileText} {members : Table Value} {current : Value}
  {c c' : Config} {new new' : String}

theorem load_iff (hmembers : readMembers path file = .ok members) :
    load path file = .ok c ↔ ofMembers members = .ok c := by
  simp [load_eq_ok, hmembers]

theorem set_iff (hknown : ({} : Config).get? key = some current) (hmembers : readMembers path file = .ok members) :
    set path file key text = .ok (c, new) ↔ ofMembers (members.insert key (valueFor current text)) = .ok c
      ∧ new = (Value.obj (members.insert key (valueFor current text)).entries).pretty := by
  simp [set_eq_ok, hknown, hmembers]

/-- where two keys were set, the other one can be set first exactly when the file could be loaded -/
theorem set_other_first (hkeys : key ≠ key') (h : set path file key text = .ok (c, new))
    (h' : set path (some new) key' text' = .ok (c', new')) :
    (∃ r, set path file key' text' = .ok r) ↔ ∃ before, load path file = .ok before := by
  obtain ⟨current, members, -, hmembers, hc, rfl⟩ := set_eq_ok.1 h
  obtain ⟨current', -, hknown', -⟩ := set_eq_ok.1 h'
  obtain ⟨hc', -⟩ := (set_iff hknown' (readMembers_pretty path ⟨c, hc⟩)).1 h'
  have hset : (∃ r, set path file key' text' = .ok r) ↔ Accepted (members.insert key' (valueFor current' text')) := by
    simp [Accepted, set_iff hknown' hmembers]
  simp only [hset, load_iff hmembers]
  exact accepted_insert_iff hkeys ⟨c, hc⟩ ⟨c', hc'⟩

/-- **Two keys may be set in either order.** -/
theorem set_comm (hkeys : key ≠ key') (h : set path file key text = .ok (c, new))
    (h' : set path (some new) key' text' = .ok (c', new')) {c₁ : Config} {new₁ : String}
    (h₁ : set path file key' text' = .ok (c₁, new₁)) : set path (some new₁) key text = .ok (c', new') := by
  obtain ⟨current, members, hknown, hmembers, hc, rfl⟩ := set_eq_ok.1 h
  obtain ⟨current', -, hknown', -⟩ := set_eq_ok.1 h'
  rw [set_iff hknown' (readMembers_pretty path ⟨c, hc⟩), Table.insert_comm hkeys] at h'
  obtain ⟨hc₁, rfl⟩ := (set_iff hknown' hmembers).1 h₁
  exact (set_iff hknown (readMembers_pretty path ⟨c₁, hc₁⟩)).2 h'

end Order

end RepoTutor.Workspace.Config
