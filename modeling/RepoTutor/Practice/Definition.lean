/-
Practices: where a learner starts, what is to be reached, and how the result is graded.

A practice is compiled once: its setup and its goal are replayed, and its rules are completed by those that its expected
commands stand for. A practice without a goal of its own asks for nothing but its starting state.
-/
import RepoTutor.Grading.Verdict
import RepoTutor.Practice.Replay
import RepoTutor.Repo.Codec

namespace RepoTutor.Practice

open Repo Grading
open Json (Value)

/-- what is to be reached: lines on top of the setup, or a repository as it is -/
structure Goal where
  commands : List String := []
  state : Option Repository := none
  deriving DecidableEq, Repr

/-- a line that a learner is expected to type -/
structure ExpectedCommand where
  command : String
  required : Bool
  deriving DecidableEq, Repr

structure Definition where
  id : String
  title : String
  description : Option String
  /-- learners have to start over when it changes -/
  version : Nat
  defaultBranch : Option String
  setup : List String
  goal : Goal
  expectedCommands : List ExpectedCommand
  /-- the order of the expected commands is graded too -/
  ordered : Bool
  rules : List Rule
  hints : List String
  deriving DecidableEq, Repr

/-- a practice that is ready to be worked on -/
structure Compiled where
  definition : Definition
  initial : Repository
  goal : Repository
  rules : List Rule
  deriving DecidableEq, Repr

namespace ExpectedCommand

/-- the rule that an expected command stands for -/
def rule (c : ExpectedCommand) : Rule := ⟨.commandIssued c.command, c.required, none⟩

def toJson (c : ExpectedCommand) : Value := .obj [("command", .str c.command), ("required", .bool c.required)]

end ExpectedCommand

def Goal.toJson (g : Goal) : Value :=
  .obj ((if g.commands.isEmpty then [] else [("commands", Value.ofStrings g.commands)])
    ++ g.state.toList.map (fun r => ("state", r.toJson)))

/-! ## Compiling -/

/-- why a practice cannot be compiled -/
inductive CompileError where
  | setup (id : String) (cause : ReplayError)
  | goal (id : String) (cause : ReplayError)
  deriving DecidableEq, Repr

/-- what was being done, and what went wrong -/
def CompileError.chain : CompileError → List String
  | setup id cause => ("running setup of practice '" ++ id ++ "'") :: cause.chain
  | goal id cause => ("building goal of practice '" ++ id ++ "'") :: cause.chain

namespace Definition

/-- the declared rules or the standard ones, a rule for each expected command, and one for their order if it matters -/
def effectiveRules (d : Definition) : List Rule :=
  (if d.rules.isEmpty then defaultRules else d.rules)
    ++ d.expectedCommands.map ExpectedCommand.rule
    ++ (if d.ordered && 1 < d.expectedCommands.length then
        [.advise (.commandOrder (d.expectedCommands.map (·.command)))]
      else [])

/-- the repository that a learner starts with -/
def initialState (d : Definition) : Except CompileError Repository :=
  (replay (Repository.new (d.defaultBranch.getD Repo.defaultBranch)) d.setup).mapError (.setup d.id)

def compile (d : Definition) : Except CompileError Compiled := do
  let initial ← d.initialState
  let goal ← match d.goal.state with
    | some r => .ok r
    | none => (replay initial d.goal.commands).mapError (.goal d.id)
  return ⟨d, initial, goal, d.effectiveRules⟩

def toJson (d : Definition) : Value :=
  .obj [("id", .str d.id), ("title", .str d.title), ("description", Value.ofOption .str d.description),
    ("version", Value.ofNat d.version), ("default_branch", Value.ofOption .str d.defaultBranch),
    ("setup", Value.ofStrings d.setup), ("goal", d.goal.toJson),
    ("expected_commands", .arr (d.expectedCommands.map ExpectedCommand.toJson)), ("ordered", .bool d.ordered),
    ("rules", .arr (d.rules.map Rule.toJson)), ("hints", Value.ofStrings d.hints)]

end Definition

namespace Compiled

def id (p : Compiled) : String := p.definition.id

def version (p : Compiled) : Nat := p.definition.version

/-- grade a repository and the lines that led to it -/
def verdict (p : Compiled) (current : Repository) (history : List String) : Verdict :=
  validate current p.goal p.rules history

end Compiled

end RepoTutor.Practice
