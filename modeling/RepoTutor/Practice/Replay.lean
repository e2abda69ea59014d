/-
Replaying terminal lines on a repository.

A replay stops at the first line that is not understood or is refused; nothing of a stopped replay is kept.
-/
import RepoTutor.Command.Parser
import RepoTutor.Transition.Apply

namespace RepoTutor.Practice

open Command Repo Transition

/-- the line at which a replay stopped, and why -/
inductive ReplayError where
  | parsing (line : String) (cause : ParseError)
  | applying (line : String) (cause : TransitionError)
  deriving DecidableEq, Repr

namespace ReplayError

/-- what was being done, and what went wrong -/
def chain : ReplayError → List String
  | parsing line cause => ["parsing \x60" ++ line ++ "\x60", cause.message]
  | applying line cause => ["applying \x60" ++ line ++ "\x60", cause.message]

end ReplayError

/-- causes from the outermost to the innermost, on one line -/
def chainText (causes : List String) : String := Text.joinWith ": " causes

/-- the repository after one line -/
def replayLine (r : Repository) (line : String) : Except ReplayError Repository :=
  match parse line with
  | .error e => .error (.parsing line e)
  | .ok op =>
    match apply r op with
    | .error e => .error (.applying line e)
    | .ok outcome => .ok outcome.state

/-- the repository after all lines -/
def replay (r : Repository) (lines : List String) : Except ReplayError Repository := lines.foldlM replayLine r

end RepoTutor.Practice
