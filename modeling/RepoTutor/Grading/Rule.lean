/-
Rules that a finished practice is graded by, and their JSON form.

A rule is written as its type with a value where it needs one, a message for the learner and whether it is required.
-/
import RepoTutor.Json.Record
import RepoTutor.Text.Basic

namespace RepoTutor.Grading

open Json (Value)

/-- what a rule checks -/
inductive RuleSpec where
  | dagShape
  /-- without a number, as many commits as the goal has -/
  | commitCount (n : Option Nat)
  | branchExists (name : String)
  | branchAbsent (name : String)
  | branchMatchesGoal (name : String)
  | branchesMatchGoal
  | headMatchesGoal
  | headOnBranch (name : String)
  | headDetached
  | fileExists (path : String)
  | fileAbsent (path : String)
  | commitMessage (text : String)
  | cleanWorkingTree
  | mergeCommitExists
  | commandIssued (command : String)
  | commandOrder (commands : List String)
  deriving DecidableEq, Repr

/-- a check with what it means for the grade -/
structure Rule where
  spec : RuleSpec
  /-- required rules decide whether a practice is solved, the others only feed the score -/
  required : Bool
  /-- told when the rule fails -/
  message : Option String
  deriving DecidableEq, Repr

/-- names of all types of rules -/
def ruleTypes : List String :=
  ["dag_shape", "commit_count", "branch_exists", "branch_absent", "branch_matches_goal", "branches_match_goal",
    "head_matches_goal", "head_on_branch", "head_detached", "file_exists", "file_absent", "commit_message",
    "clean_working_tree", "merge_commit_exists", "command_issued", "command_order"]

/-! ## Writing -/

namespace RuleSpec

def typeName : RuleSpec → String
  | dagShape => "dag_shape"
  | commitCount _ => "commit_count"
  | branchExists _ => "branch_exists"
  | branchAbsent _ => "branch_absent"
  | branchMatchesGoal _ => "branch_matches_goal"
  | branchesMatchGoal => "branches_match_goal"
  | headMatchesGoal => "head_matches_goal"
  | headOnBranch _ => "head_on_branch"
  | headDetached => "head_detached"
  | fileExists _ => "file_exists"
  | fileAbsent _ => "file_absent"
  | commitMessage _ => "commit_message"
  | cleanWorkingTree => "clean_working_tree"
  | mergeCommitExists => "merge_commit_exists"
  | commandIssued _ => "command_issued"
  | commandOrder _ => "command_order"

/-- the value of a rule, if its type has one -/
def value : RuleSpec → Option Value
  | commitCount n => n.map Value.ofNat
  | branchExists s => some (.str s)
  | branchAbsent s => some (.str s)
  | branchMatchesGoal s => some (.str s)
  | headOnBranch s => some (.str s)
  | fileExists s => some (.str s)
  | fileAbsent s => some (.str s)
  | commitMessage s => some (.str s)
  | commandIssued s => some (.str s)
  | commandOrder l => some (Value.ofStrings l)
  | _ => none

end RuleSpec

namespace Rule

/-- a rule that has to pass -/
def need (spec : RuleSpec) : Rule := ⟨spec, true, none⟩

/-- a rule that only feeds the score -/
def advise (spec : RuleSpec) : Rule := ⟨spec, false, none⟩

def toJson (r : Rule) : Value :=
  .obj ([("type", .str r.spec.typeName)]
    ++ r.spec.value.toList.map (fun v => ("value", v))
    ++ r.message.toList.map (fun m => ("message", .str m))
    ++ [("required", .bool r.required)])

end Rule

/-! ## Reading -/

inductive RuleError where
  | unknownType (name : String)
  | invalidValue (rule expected : String)
  deriving DecidableEq, Repr

def RuleError.message : RuleError → String
  | unknownType name => "unknown rule type \"" ++ name ++ "\""
  | invalidValue rule expected => "rule " ++ rule ++ ": value must be " ++ expected

/-- a text with more than blanks in it -/
def ruleText (rule : String) : Value → Except RuleError String
  | .str s => if Text.isBlankText s then .error (.invalidValue rule "a non-empty string") else .ok s
  | _ => .error (.invalidValue rule "a non-empty string")

/-- a number of commits; none for null -/
def ruleCount : Value → Except RuleError (Option Nat)
  | .null => .ok none
  | v =>
    match v.nat64? with
    | some n => .ok (some n)
    | none => .error (.invalidValue "commit_count" "a non-negative integer")

def ruleCommands (v : Value) : Except RuleError (List String) :=
  match Value.listOf? Value.str? v with
  | some l => .ok l
  | none => .error (.invalidValue "command_order" "a list of command strings")

/-- the check that a type and a value name; a type without a value ignores it -/
def RuleSpec.ofTyped (kind : String) (v : Value) : Except RuleError RuleSpec :=
  match kind with
  | "dag_shape" => .ok dagShape
  | "commit_count" => (ruleCount v).map commitCount
  | "branch_exists" => (ruleText "branch_exists" v).map branchExists
  | "branch_absent" => (ruleText "branch_absent" v).map branchAbsent
  | "branch_matches_goal" => (ruleText "branch_matches_goal" v).map branchMatchesGoal
  | "branches_match_goal" => .ok branchesMatchGoal
  | "head_matches_goal" => .ok headMatchesGoal
  | "head_on_branch" => (ruleText "head_on_branch" v).map headOnBranch
  | "head_detached" => .ok headDetached
  | "file_exists" => (ruleText "file_exists" v).map fileExists
  | "file_absent" => (ruleText "file_absent" v).map fileAbsent
  | "commit_message" => (ruleText "commit_message" v).map commitMessage
  | "clean_working_tree" => .ok cleanWorkingTree
  | "merge_commit_exists" => .ok mergeCommitExists
  | "command_issued" => (ruleText "command_issued" v).map commandIssued
  | "command_order" => (ruleCommands v).map commandOrder
  | other => .error (.unknownType other)

/-- the written form of a rule before its value is looked at -/
structure RawRule where
  kind : String
  value : Value
  message : Option String
  required : Bool

def RawRule.ofJson? (v : Value) : Option RawRule := do
  let r ← v.record? ["type", "value", "message", "required"]
  return ⟨← r.required "type" Value.str?, (r.field? "value").getD .null, ← r.absentable "message" Value.str?,
    ← r.defaulted "required" true Value.bool?⟩

def RawRule.check (raw : RawRule) : Except RuleError Rule := do
  return ⟨← RuleSpec.ofTyped raw.kind raw.value, raw.required, raw.message⟩

/-- a rule; `none` when the value has not the shape of one -/
def Rule.ofJson? (v : Value) : Option (Except RuleError Rule) := (RawRule.ofJson? v).map RawRule.check

end RepoTutor.Grading
