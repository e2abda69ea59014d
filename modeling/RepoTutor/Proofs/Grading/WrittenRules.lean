/-
Rules are read back from their JSON.

What is read as a rule has a text with more than blanks in it, where its type needs one, and a number that is a 64-bit word
(`RuleSpec.Legible`). These are all that reading asks for: the type and the value that a check is written with name the
check again (`ofTyped_written`), an absent value standing for the null that it is read as. So the rules that anything is
read as are those with a legible check (`Rule.legible_iff`), and these are read back from whatever they are written as
(`Rule.readBack`).
-/
import RepoTutor.Grading.Rule
import RepoTutor.Proofs.Json.MemberOrder

namespace RepoTutor.Grading

open Json Json.Value

/-! ## Checks -/

namespace RuleSpec

/-- the text that a check is about -/
def text? : RuleSpec → Option String
  | branchExists s => some s
  | branchAbsent s => some s
  | branchMatchesGoal s => some s
  | headOnBranch s => some s
  | fileExists s => some s
  | fileAbsent s => some s
  | commitMessage s => some s
  | commandIssued s => some s
  | _ => none

/-- the number that a check is about -/
def count? : RuleSpec → Option Nat
  | commitCount n => n
  | _ => none

/-- what a check is about can be read -/
structure Legible (spec : RuleSpec) : Prop where
  text : ∀ s ∈ spec.text?, Text.isBlankText s = false
  count : ∀ n ∈ spec.count?, n < wordCount 64

end RuleSpec

theorem ruleText_eq_ok {rule : String} {v : Value} {s : String} :
    ruleText rule v = .ok s ↔ v = .str s ∧ Text.isBlankText s = false := by
  cases v with
  | str t =>
    rw [ruleText, Value.str.injEq]
    cases hblank : Text.isBlankText t with
    | true =>
      simp only [if_true, reduceCtorEq, false_iff, not_and]
      rintro rfl
      simp [hblank]
    | false =>
      simp only [Bool.false_eq_true, if_false, Except.ok.injEq, iff_self_and]
      rintro rfl
      exact hblank
  | _ => simp [ruleText]

theorem ruleCount_lt {v : Value} {n : Nat} (h : ruleCount v = .ok (some n)) : n < wordCount 64 := by
  unfold ruleCount at h
  split at h
  · cases h
  · split at h
    · rename_i hn
      cases h
      exact lt_of_natBelow? hn
    · cases h

namespace RuleSpec

/-- a check that is named with a text has the text -/
theorem legible_of_text {f : String → RuleSpec} (hf : ∀ s, (f s).text? = some s) (hcount : ∀ s, (f s).count? = none)
    {rule : String} {v : Value} {spec : RuleSpec} (h : (ruleText rule v).map f = .ok spec) : spec.Legible := by
  obtain ⟨s, hs, rfl⟩ := Except.map_eq_ok.1 h
  obtain ⟨-, hblank⟩ := ruleText_eq_ok.1 hs
  exact ⟨by simp [hf, hblank], by simp [hcount]⟩

/-- **Whatever is read as a check is legible.** -/
theorem legible_of_ofTyped {kind : String} {v : Value} {spec : RuleSpec} (h : ofTyped kind v = .ok spec) :
    spec.Legible := by
  unfold ofTyped at h
  split at h
  -- the type with a number, the one with commands and no type at all; the others have a text or nothing
  case h_2 =>
    obtain ⟨n, hn, rfl⟩ := Except.map_eq_ok.1 h
    refine ⟨by simp [text?], fun m hm => ?_⟩
    rw [show n = some m from hm] at hn
    exact ruleCount_lt hn
  case h_16 =>
    obtain ⟨l, -, rfl⟩ := Except.map_eq_ok.1 h
    exact ⟨by simp [text?], by simp [count?]⟩
  case h_17 => cases h
  all_goals first
    | cases h
      exact ⟨by simp [text?], by simp [count?]⟩
    | exact legible_of_text (fun _ => rfl) (fun _ => rfl) h

/-- a legible text is read as it is -/
theorem ruleText_of_legible {spec : RuleSpec} (h : spec.Legible) {s : String} (hs : spec.text? = some s) (rule : String) :
    ruleText rule (.str s) = .ok s :=
  ruleText_eq_ok.2 ⟨rfl, h.text s hs⟩

/-- **The type and the value of a legible check name it again.** -/
theorem ofTyped_written {spec : RuleSpec} (h : spec.Legible) :
    ofTyped spec.typeName (spec.value.getD .null) = .ok spec := by
  cases spec with
  | commitCount n =>
    cases n with
    | none => rfl
    | some n =>
      have hread : ruleCount (ofNat n) = .ok (some n) := by
        have hnat := nat64?_ofNat (h.count n rfl)
        rw [ofNat] at hnat ⊢
        simp [ruleCount, hnat]
      simp [ofTyped, typeName, value, hread, Except.map]
  | commandOrder l => simp [ofTyped, typeName, value, ruleCommands, listOf?_ofStrings, Except.map]
  | branchExists s | branchAbsent s | branchMatchesGoal s | headOnBranch s | fileExists s | fileAbsent s
  | commitMessage s | commandIssued s =>
    have hs := ruleText_of_legible (s := s) h rfl
    simp [ofTyped, typeName, value, hs, Except.map]
  | _ => rfl

/-- the value of a check has no members to reorder -/
theorem value_unordered {spec : RuleSpec} {w v : Value} (hw : spec.value = some w) (hv : Reordered w v) : v = w := by
  have hstr : ∀ s, w = .str s → v = w := by
    rintro s rfl
    exact same_str.1 hv.1
  cases spec with
  | commitCount n =>
    obtain ⟨n, -, rfl⟩ := Option.map_eq_some_iff.1 hw
    exact same_num.1 hv.1
  | commandOrder l =>
    cases hw
    exact eq_of_same_ofStrings hv.1
  | branchExists s | branchAbsent s | branchMatchesGoal s | headOnBranch s | fileExists s | fileAbsent s
  | commitMessage s | commandIssued s => exact hstr s (Option.some.inj hw).symm
  | _ => cases hw

theorem tidy_value (depth : Nat) {spec : RuleSpec} (h : spec.Legible) {w : Value} (hw : spec.value = some w) :
    Tidy (depth + 1) w := by
  cases spec with
  | commitCount n =>
    obtain ⟨n, hn, rfl⟩ := Option.map_eq_some_iff.1 hw
    exact tidy_ofNat _ (h.count n hn)
  | commandOrder l =>
    cases hw
    exact tidy_ofStrings _ l
  | branchExists s | branchAbsent s | branchMatchesGoal s | headOnBranch s | fileExists s | fileAbsent s
  | commitMessage s | commandIssued s =>
    cases hw
    exact tidy_str _ s
  | _ => cases hw

end RuleSpec

/-! ## Rules -/

namespace Rule

/-- the members that a rule is written with -/
def members (r : Rule) : List (String × Value) :=
  [("type", .str r.spec.typeName)] ++ r.spec.value.toList.map (fun v => ("value", v))
    ++ r.message.toList.map (fun m => ("message", .str m)) ++ [("required", .bool r.required)]

theorem toJson_eq (r : Rule) : r.toJson = .obj r.members := rfl

theorem nodup_keys (r : Rule) : (r.members.map Prod.fst).Nodup := by
  unfold members
  cases r.spec.value <;> cases r.message <;> simp

/-- each member stands where it is looked for, and is missing if it is not written -/
theorem first?_members (r : Rule) :
    first? r.members "type" = some (.str r.spec.typeName) ∧ first? r.members "value" = r.spec.value
      ∧ first? r.members "message" = r.message.map .str ∧ first? r.members "required" = some (.bool r.required) := by
  unfold members
  cases r.spec.value <;> cases r.message <;> simp [first?]

/-- a rule is read in its written form from every order of its members -/
theorem finds_raw (r : Rule) :
    Finds RawRule.ofJson? r.toJson ⟨r.spec.typeName, r.spec.value.getD .null, r.message, r.required⟩ := by
  intro v hv
  rw [toJson_eq] at hv
  obtain ⟨l, rfl, hl⟩ := Shows.of_reordered hv r.nodup_keys
  obtain ⟨htype, hvalue, hmessage, hrequired⟩ := r.first?_members
  have htype := hl.required "type" htype (finds_str _)
  have hmessage := hl.absentable "message" hmessage (fun _ _ => by simp) (fun m _ => finds_str m)
  have hrequired := hl.defaulted "required" true hrequired (finds_bool _)
  have hfound : first? l "value" = r.spec.value := by
    cases hw : r.spec.value with
    | none => exact hl.absent (hvalue.trans hw)
    | some w =>
      obtain ⟨v, hv, hreordered⟩ := hl.field (hvalue.trans hw)
      rw [hv, RuleSpec.value_unordered hw hreordered]
  simp [RawRule.ofJson?, hl.record, htype, hmessage, hrequired, hfound]

theorem finds_rule {r : Rule} (h : r.spec.Legible) : Finds Rule.ofJson? r.toJson (.ok r) := by
  intro v hv
  rw [Rule.ofJson?, r.finds_raw v hv, Option.map_some, RawRule.check]
  simp [RuleSpec.ofTyped_written h, bind, Except.bind, pure, Except.pure]

theorem tidy_toJson {r : Rule} (h : r.spec.Legible) (depth : Nat) : Tidy (depth + 2) r.toJson := by
  refine tidy_obj _ r.nodup_keys (fun m hm => ?_)
  simp only [List.mem_append, List.mem_map, List.mem_singleton] at hm
  rcases hm with ((rfl | ⟨w, hw, rfl⟩) | ⟨text, -, rfl⟩) | rfl
  · exact tidy_str _ _
  · exact RuleSpec.tidy_value _ h (Option.mem_toList.1 hw)
  · exact tidy_str _ text
  · exact tidy_bool _ _

/-- **A rule with a legible check is read back.** -/
theorem readBack {r : Rule} (h : r.spec.Legible) : ReadBack Rule.ofJson? r.toJson (.ok r) :=
  (finds_rule h).readBack (tidy_toJson h 125)

/-- what is accepted as a rule has a legible check -/
theorem legible_of_check {raw : RawRule} {r : Rule} (h : raw.check = .ok r) : r.spec.Legible := by
  obtain ⟨spec, hspec, hr⟩ := Except.bind_eq_ok.1 h
  cases hr
  exact RuleSpec.legible_of_ofTyped hspec

/-- **The rules that something is read as** are those with a legible check. -/
theorem legible_iff {r : Rule} : r.spec.Legible ↔ ∃ v, Rule.ofJson? v = some (.ok r) := by
  constructor
  · intro h
    exact ⟨r.toJson, (readBack h).itself⟩
  · rintro ⟨v, hv⟩
    obtain ⟨raw, -, hcheck⟩ := Option.map_eq_some_iff.1 hv
    exact legible_of_check hcheck

end Rule

end RepoTutor.Grading
