/-
The rules of a practice are read back from their JSON.

A practice that is accepted has only rules that were read, so with legible checks (`legible_of_rule?`), and no blank line
among its expected commands (`expected_of_check`). So all rules that it is graded by are legible: the declared ones, the
standard ones that stand in for them, and those that the expected commands and their order stand for without having been
read (`effectiveRules_legible`). The main result `effective_rules_are_read_back` says that every rule that can be read at
all is read back from what it is written as, and that the rules of an accepted practice are among these.
-/
import RepoTutor.Practice.Reading
import RepoTutor.Proofs.Grading.WrittenRules

namespace RepoTutor.Yaml

variable {α : Type}

/-! ## Fields that were read -/

theorem Record.defaulted_eq_some {r : Record} {name : String} {standard a : α} {read : Value → Option α}
    (h : r.defaulted name standard read = some a) : a = standard ∨ ∃ v, read v = some a := by
  unfold Record.defaulted at h
  split at h
  · exact Or.inl (Option.some.inj h).symm
  · exact Or.inr ⟨_, h⟩

/-- every item of a list was read from a value -/
theorem Value.listOf?_items {read : Value → Option α} {v : Value} {l : List α} (h : v.listOf? read = some l) :
    ∀ a ∈ l, ∃ w, read w = some a := by
  unfold Value.listOf? at h
  intro a ha
  split at h
  · rename_i items _
    have hmem : some a ∈ items.map read := by
      rw [mapM_eq_some.1 h]
      exact List.mem_map_of_mem ha
    obtain ⟨w, -, hw⟩ := List.mem_map.1 hmem
    exact ⟨w, hw⟩
  · cases h
    cases ha
  · cases h

end RepoTutor.Yaml

namespace RepoTutor.Practice

open Grading Json.Value
open Yaml (Value Record)

theorem legible_of_rule? {v : Value} {r : Rule} (h : rule? v = some r) : r.spec.Legible := by
  simp only [rule?, Option.bind_eq_bind, Option.bind_eq_some_iff] at h
  obtain ⟨_, -, kind, -, value, -, message, -, required, -, hcheck⟩ := h
  cases hraw : RawRule.check ⟨kind, value, message, required⟩ with
  | error e =>
    rw [hraw] at hcheck
    cases hcheck
  | ok r' =>
    rw [hraw] at hcheck
    cases hcheck
    exact Rule.legible_of_check hraw

/-- the declared rules were read -/
theorem rules_of_definition? {v : Value} {d : Definition} (h : definition? v = some d) :
    ∀ r ∈ d.rules, r.spec.Legible := by
  simp only [definition?, Option.bind_eq_bind, Option.bind_eq_some_iff, Option.pure_def, Option.some.injEq] at h
  obtain ⟨_, -, _, -, _, -, _, -, _, -, _, -, _, -, _, -, _, -, _, -, rules, hrules, _, -, rfl⟩ := h
  intro r hr
  rcases Record.defaulted_eq_some hrules with rfl | ⟨v, hv⟩
  · cases hr
  · obtain ⟨w, hw⟩ := Value.listOf?_items hv r hr
    exact legible_of_rule? hw

/-- no expected command is blank -/
theorem expected_of_check {d : Definition} (h : d.check = .ok ()) :
    ∀ c ∈ d.expectedCommands, Text.isBlankText c.command = false := by
  unfold Definition.check at h
  -- the identifier, the title, the goal, the version and the branch are looked at before the commands
  obtain ⟨-, h⟩ := Except.passed_eq_ok.1 h
  obtain ⟨-, h⟩ := Except.passed_eq_ok.1 h
  obtain ⟨-, h⟩ := Except.passed_eq_ok.1 h
  obtain ⟨-, h⟩ := Except.passed_eq_ok.1 h
  have hexpected : ¬d.expectedCommands.any (fun c => Text.isBlankText c.command) = true := by
    intro hblank
    simp only [hblank, if_true] at h
    split at h
    · obtain ⟨_, -, h⟩ := Except.bind_eq_ok.1 h
      cases h
    · cases h
  simpa using hexpected

/-- an accepted practice was read and checked -/
theorem definition_of_ofText {text : String} {d : Definition} (h : Definition.ofText text = .ok d) :
    ∃ v, definition? v = some d ∧ d.check = .ok () := by
  unfold Definition.ofText at h
  split at h
  · obtain ⟨_, -, h⟩ := Except.bind_eq_ok.1 h
    obtain ⟨v, -, h⟩ := Except.bind_eq_ok.1 h
    split at h
    · rename_i d' hd
      obtain ⟨_, hsame, h⟩ := Except.bind_eq_ok.1 h
      obtain ⟨_, hcheck, h⟩ := Except.bind_eq_ok.1 h
      cases hsame
      cases h
      exact ⟨v, hd, hcheck⟩
    · cases h
  · cases h

/-! ## Rules that are graded by -/

theorem legible_defaultRules : ∀ r ∈ defaultRules, r.spec.Legible := by
  intro r hr
  simp only [defaultRules, List.mem_cons, List.not_mem_nil, or_false] at hr
  rcases hr with rfl | rfl | rfl
  all_goals exact ⟨nofun, nofun⟩

theorem effectiveRules_legible {d : Definition} (hrules : ∀ r ∈ d.rules, r.spec.Legible)
    (hexpected : ∀ c ∈ d.expectedCommands, Text.isBlankText c.command = false) :
    ∀ r ∈ d.effectiveRules, r.spec.Legible := by
  intro r hr
  simp only [Definition.effectiveRules, List.mem_append] at hr
  rcases hr with (hr | hr) | hr
  · split at hr
    · exact legible_defaultRules r hr
    · exact hrules r hr
  · obtain ⟨c, hc, rfl⟩ := List.mem_map.1 hr
    refine ⟨?_, nofun⟩
    rintro s ⟨⟩
    exact hexpected c hc
  · split at hr
    · obtain rfl := List.mem_singleton.1 hr
      exact ⟨nofun, nofun⟩
    · cases hr

/-- **Rules are read back.** Of the rules of all types, those can be read that have a legible check, whatever their message
and whether they are required or not. A rule that anything is read as is read from every value that it can be written as,
with its members in any order, and from each text of such a value; and all rules that an accepted practice is graded by are
among these. -/
theorem effective_rules_are_read_back :
    (∀ r : Rule, r.spec.Legible ↔ ∃ v, Rule.ofJson? v = some (.ok r))
      ∧ (∀ v r, Rule.ofJson? v = some (.ok r) → ReadBack Rule.ofJson? r.toJson (.ok r))
      ∧ ∀ text d, Definition.ofText text = .ok d → ∀ r ∈ d.effectiveRules,
          (∃ v, Rule.ofJson? v = some (.ok r)) ∧ ReadBack Rule.ofJson? r.toJson (.ok r) := by
  refine ⟨fun r => Rule.legible_iff, fun v r h => Rule.readBack (Rule.legible_iff.2 ⟨v, h⟩), fun text d h r hr => ?_⟩
  obtain ⟨v, hv, hcheck⟩ := definition_of_ofText h
  have hlegible := effectiveRules_legible (rules_of_definition? hv) (expected_of_check hcheck) r hr
  exact ⟨Rule.legible_iff.1 hlegible, Rule.readBack hlegible⟩

def pairText : String :=
  "id: pair\ntitle: Pair\nexpected_commands: [git add a, git commit]\nordered: true\nrules: [commit_count: 2]"

/-- two lines in their order, and a number of commits -/
def pair : Definition where
  id := "pair"
  title := "Pair"
  description := none
  version := 1
  defaultBranch := none
  setup := []
  goal := {}
  expectedCommands := [⟨"git add a", true⟩, ⟨"git commit", true⟩]
  ordered := true
  rules := [.need (.commitCount (some 2))]
  hints := []

/-- the order of the two lines is graded by a rule that was not read, but is the same as one that could be -/
theorem rules_of_pair_are_read_back :
    Definition.ofText pairText = .ok pair
      ∧ Rule.advise (.commandOrder ["git add a", "git commit"]) ∈ pair.effectiveRules
      ∧ Rule.ofJson? (.obj [("value", .arr [.str "git add a", .str "git commit"]), ("required", .bool false),
            ("type", .str "command_order")]) = some (.ok (.advise (.commandOrder ["git add a", "git commit"])))
      ∧ Rule.ofJson? (Rule.advise (.commandOrder ["git add a", "git commit"])).toJson =
          some (.ok (.advise (.commandOrder ["git add a", "git commit"])))
      ∧ ∀ r ∈ pair.effectiveRules, Rule.ofJson? r.toJson = some (.ok r) := by
  obtain ⟨-, hread, heffective⟩ := effective_rules_are_read_back
  have htext : Definition.ofText pairText = .ok pair := by decide +kernel
  have hvalue : Rule.ofJson? (.obj [("value", .arr [.str "git add a", .str "git commit"]), ("required", .bool false),
      ("type", .str "command_order")]) = some (.ok (.advise (.commandOrder ["git add a", "git commit"]))) := rfl
  have hback := hread _ _ hvalue
  refine ⟨htext, by decide, hvalue, hback.itself, fun r hr => ?_⟩
  obtain ⟨-, hback⟩ := heffective _ _ htext r hr
  exact hback.itself

end RepoTutor.Practice
