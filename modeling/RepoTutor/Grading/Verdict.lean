/-
Grading a repository against a goal.

Every rule is checked by itself and tells what it expected and what it found. A repository is correct when all required
rules pass; the score is the share of all rules that pass.
-/
import RepoTutor.Grading.CommandMatch
import RepoTutor.Grading.Rule
import RepoTutor.Grading.Shape

namespace RepoTutor.Grading

open Repo
open Json (Value)

/-- outcome of one rule -/
structure RuleResult where
  rule : String
  passed : Bool
  required : Bool
  expected : String
  actual : String
  message : Option String
  deriving DecidableEq, Repr

structure Verdict where
  isCorrect : Bool
  results : List RuleResult
  score : Binary64
  deriving DecidableEq, Repr

/-- what a check finds -/
structure Finding where
  passed : Bool
  expected : String
  actual : String

/-- what the rules look at -/
structure Context where
  current : Repository
  goal : Repository
  history : List String
  currentShapes : Table String
  goalShapes : Table String

def Context.of (current goal : Repository) (history : List String) : Context :=
  ⟨current, goal, history, commitShapes current, commitShapes goal⟩

/-! ## What was found, in words -/

def branchList (r : Repository) : String :=
  if r.branches.isEmpty then "no branches" else "branches: " ++ Text.joinWith ", " r.branches.keys

def headText (r : Repository) : String :=
  match r.head with
  | .attached name => "on branch " ++ name
  | .detached id => "HEAD detached at " ++ short id

def presence (path : Path) (present : Bool) : String :=
  "'" ++ path ++ (if present then "' committed" else "' not committed")

/-! ## Checks -/

namespace Context

/-- shape of a branch's commit in the learner's repository -/
def currentBranchShape (c : Context) (name : BranchName) : Option String :=
  (c.current.branches.get? name).bind c.currentShapes.get?

/-- shape of a branch's commit in the goal -/
def goalBranchShape (c : Context) (name : BranchName) : Option String :=
  (c.goal.branches.get? name).bind c.goalShapes.get?

def checkBranchMatchesGoal (c : Context) (name : BranchName) : Finding :=
  let want := c.goalBranchShape name
  let found := c.currentBranchShape name
  let absent := "no branch '" ++ name ++ "'"
  let matching := "'" ++ name ++ "' at the goal's position"
  ⟨want = found, if want.isSome then matching else absent,
    if found.isNone then absent
    else if want = found then matching
    else "'" ++ name ++ "' at a different position"⟩

/-- branches of the goal that the learner's repository does not match -/
def mismatchedBranches (c : Context) : List BranchName :=
  c.goal.branches.keys.filter (fun name =>
    (c.goalBranchShape name).isNone || c.goalBranchShape name != c.currentBranchShape name)

def checkBranchesMatchGoal (c : Context) : Finding :=
  let expected := branchList c.goal
  match c.mismatchedBranches with
  | [] => ⟨true, expected, expected⟩
  | names => ⟨false, expected, "mismatched: " ++ Text.joinWith ", " names⟩

def headMatches (c : Context) : Bool :=
  match c.goal.head, c.current.head with
  | .attached want, .attached found => want = found
  | .detached want, .detached found =>
    (c.goalShapes.get? want).isSome && c.goalShapes.get? want = c.currentShapes.get? found
  | _, _ => false

def checkCommitMessage (c : Context) (text : String) : Finding :=
  let expected := "HEAD message containing \"" ++ text ++ "\""
  match c.current.headCommit with
  | none => ⟨false, expected, "no commits"⟩
  | some commit =>
    ⟨Text.hasInfix (Text.toLower text).toList (Text.toLower commit.message).toList, expected,
      "\"" ++ commit.summary ++ "\""⟩

def checkClean (c : Context) : Finding :=
  ⟨c.current.isClean, "clean",
    if c.current.isClean then "clean"
    else if c.current.mergeHead.isSome then "merge in progress"
    else "pending: " ++ Text.joinWith ", " c.current.edits.keys⟩

def checkCommandIssued (c : Context) (expected : String) : Finding :=
  let quoted (line : String) := "ran \x60" ++ line ++ "\x60"
  match c.history.find? (commandMatches expected) with
  | some line => ⟨true, quoted expected, quoted line⟩
  | none => ⟨false, quoted expected, "not run"⟩

def checkCommandOrder (c : Context) (expected : List String) : Finding :=
  let matched := matchInOrder expected c.history
  ⟨matched = expected.length, "in order: " ++ Text.joinWith " → " expected,
    match expected[matched]? with
    | none => "in order"
    | some next => "\x60" ++ next ++ "\x60 missing or out of order"⟩

def check (c : Context) : RuleSpec → Finding
  | .dagShape =>
    ⟨dagSignature c.current c.currentShapes = dagSignature c.goal c.goalShapes, describe c.goal, describe c.current⟩
  | .commitCount n =>
    let expected := n.getD c.goal.reachable.length
    let actual := c.current.reachable.length
    ⟨expected = actual, Text.natText expected ++ " commits", Text.natText actual ++ " commits"⟩
  | .branchExists name =>
    ⟨c.current.branches.contains name, "branch '" ++ name ++ "' exists", branchList c.current⟩
  | .branchAbsent name =>
    ⟨!c.current.branches.contains name, "no branch '" ++ name ++ "'", branchList c.current⟩
  | .branchMatchesGoal name => c.checkBranchMatchesGoal name
  | .branchesMatchGoal => c.checkBranchesMatchGoal
  | .headMatchesGoal => ⟨c.headMatches, headText c.goal, headText c.current⟩
  | .headOnBranch name => ⟨c.current.currentBranch = some name, "on branch " ++ name, headText c.current⟩
  | .headDetached => ⟨c.current.detachedAt.isSome, "HEAD detached", headText c.current⟩
  | .fileExists path =>
    let present := c.current.headTree.contains path
    ⟨present, presence path true, presence path present⟩
  | .fileAbsent path =>
    let present := c.current.headTree.contains path
    ⟨!present, presence path false, presence path present⟩
  | .commitMessage text => c.checkCommitMessage text
  | .cleanWorkingTree => c.checkClean
  | .mergeCommitExists =>
    let merges := mergeCount c.current
    ⟨0 < merges, "at least one merge commit", Text.natText merges ++ " merge commits"⟩
  | .commandIssued expected => c.checkCommandIssued expected
  | .commandOrder expected => c.checkCommandOrder expected

/-- a rule's finding with what it means for the grade; a message is told only on failure -/
def grade (c : Context) (rule : Rule) : RuleResult :=
  let f := c.check rule.spec
  ⟨rule.spec.typeName, f.passed, rule.required, f.expected, f.actual, if f.passed then none else rule.message⟩

end Context

/-- share of the results that passed; all of them when there are none -/
def scoreOf (results : List RuleResult) : Binary64 :=
  if results.isEmpty then Binary64.ofNat 1
  else Binary64.ofRatio false (results.filter (·.passed)).length results.length

/-- grade a repository against a goal by a list of rules -/
def validate (current goal : Repository) (rules : List Rule) (history : List String) : Verdict :=
  let results := rules.map (Context.of current goal history).grade
  ⟨results.all (fun r => !r.required || r.passed), results, scoreOf results⟩

/-- the rules of a practice that declares none -/
def defaultRules : List Rule := [.need .dagShape, .need .branchesMatchGoal, .need .headMatchesGoal]

/-! ## A verdict as lines and as JSON -/

namespace RuleResult

def isFailure (r : RuleResult) : Bool := r.required && !r.passed

def lines (r : RuleResult) : List String :=
  ["[" ++ (if r.passed then "pass" else "FAIL") ++ "] " ++ r.rule ++ (if r.required then "" else " (advisory)")]
    ++ (if r.passed then []
      else ["       expected: " ++ r.expected, "       actual:   " ++ r.actual]
        ++ r.message.toList.map ("       hint:     " ++ ·))

def toJson (r : RuleResult) : Value :=
  .obj ([("rule", .str r.rule), ("passed", .bool r.passed), ("required", .bool r.required),
      ("expected", .str r.expected), ("actual", .str r.actual)]
    ++ r.message.toList.map (fun m => ("message", .str m)))

end RuleResult

namespace Verdict

def failedRequired (v : Verdict) : List RuleResult := v.results.filter RuleResult.isFailure

/-- the score with six decimal places -/
def scoreText (v : Verdict) : String := v.score.fixed 6

/-- the score as a whole percentage, an exact half going to the even number -/
def percentText (v : Verdict) : String := (v.score.mul (Binary64.ofNat 100)).fixed 0

def lines (v : Verdict) : List String :=
  v.results.flatMap RuleResult.lines
    ++ ["", (if v.isCorrect then "Solved!" else "Not solved yet.") ++ " (score " ++ v.percentText ++ "%)"]

def toJson (v : Verdict) : Value :=
  .obj [("is_correct", .bool v.isCorrect), ("results", .arr (v.results.map RuleResult.toJson)),
    ("score", .num (.real v.score))]

end Verdict

end RepoTutor.Grading
