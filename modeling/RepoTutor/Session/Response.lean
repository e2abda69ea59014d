/-
What a session answers, as data and as JSON.
-/
import RepoTutor.Practice.Definition
import RepoTutor.Store.Key
import RepoTutor.Transition.Apply

namespace RepoTutor.Session

open Command Repo Transition Practice
open Json (Value)

/-- why a line had no effect -/
inductive CommandError where
  /-- the line could not be understood -/
  | parse (cause : ParseError)
  /-- what the line asks for is not possible now -/
  | transition (cause : TransitionError)
  deriving DecidableEq, Repr

namespace CommandError

def kind : CommandError → String
  | parse _ => "parse"
  | transition _ => "transition"

def code : CommandError → String
  | parse _ => "parse_error"
  | transition cause => cause.code

def message : CommandError → String
  | parse cause => cause.message
  | transition cause => cause.message

def toJson (e : CommandError) : Value :=
  .obj [("kind", .str e.kind), ("code", .str e.code), ("message", .str e.message)]

end CommandError

/-- the outcome of one line; `state` is where the session is after it -/
structure Response where
  result : Except CommandError Output
  state : Repository

namespace Response

def isOk (r : Response) : Bool := r.result.isOk

/-- terminal lines to print -/
def output (r : Response) : List String :=
  match r.result with
  | .ok o => o.render
  | .error e => [e.message]

def toJson (r : Response) : Value :=
  .obj ([("ok", .bool r.isOk), ("output", Value.ofStrings r.output)]
    ++ (match r.result with
      | .ok o => [("detail", o.toJson), ("state", r.state.toJson)]
      | .error e => [("state", r.state.toJson), ("error", e.toJson)]))

end Response

/-- a session as its learner sees it -/
structure View where
  key : Store.SessionKey
  version : Nat
  state : Repository
  /-- accepted lines in their order -/
  history : List String
  deriving DecidableEq, Repr

namespace View

def status (v : View) : StatusReport := Transition.status v.state

def lines (v : View) : List String :=
  ["practice " ++ v.key.practice ++ " v" ++ Text.natText v.version ++ " for " ++ v.key.learner]
    ++ v.status.render
    ++ (if v.history.isEmpty then [] else "" :: "history:" :: v.history.map ("  " ++ ·))

def toJson (v : View) : Value :=
  .obj [("learner_id", .str v.key.learner), ("practice_id", .str v.key.practice), ("version", Value.ofNat v.version),
    ("state", v.state.toJson), ("status", v.status.toJson), ("history", Value.ofStrings v.history)]

end View

/-- the entry of a practice in a listing -/
def summary (p : Compiled) : Value :=
  let d := p.definition
  .obj ([("id", .str d.id), ("title", .str d.title)]
    ++ d.description.toList.map (fun s => ("description", .str s))
    ++ [("version", Value.ofNat d.version), ("hints", Value.ofStrings d.hints),
      ("rule_count", Value.ofNat p.rules.length)])

/-- notice of what happened to a session -/
inductive EventKind where
  | executed (command : String) (state : Repository)
  | validated (isCorrect : Bool) (score : Binary64)
  | reset (version : Nat) (state : Repository)
  deriving DecidableEq, Repr

structure Event where
  key : Store.SessionKey
  kind : EventKind
  deriving DecidableEq, Repr

end RepoTutor.Session
