/-
What a command of the program prints.
-/
import RepoTutor.Session.Executor
import RepoTutor.Workspace.Catalogue

namespace RepoTutor.Cli

open Workspace (Failure)

/-- text for standard output and for standard error -/
structure Printed where
  out : String := ""
  err : String := ""
  deriving DecidableEq, Repr

namespace Printed

instance : Append Printed := ⟨fun a b => ⟨a.out ++ b.out, a.err ++ b.err⟩⟩

/-- lines on standard output -/
def lines (l : List String) : Printed := ⟨String.join (l.map (· ++ "\n")), ""⟩

/-- lines on standard error -/
def errorLines (l : List String) : Printed := ⟨"", String.join (l.map (· ++ "\n"))⟩

/-- text on standard output without a line's end -/
def text (s : String) : Printed := ⟨s, ""⟩

end Printed

/-! ## Failures -/

/-- a cause behind its label, its further lines indented as far -/
def causeText (label indent cause : String) : String :=
  "\n" ++ label ++ Text.joinWith ("\n" ++ indent) (Text.splitOn '\n' cause)

/-- causes with their numbers, aligned to the right -/
def numberedCauses : Nat → List String → String
  | _, [] => ""
  | n, cause :: rest =>
    let number := Text.natText n
    let blanks := String.ofList (List.replicate (5 - number.length) ' ')
    causeText (blanks ++ number ++ ": ") "       " cause ++ numberedCauses (n + 1) rest

/-- a failure with its causes; several causes are numbered -/
def failureText : Failure → String
  | [] => "Error: \n"
  | [outer] => "Error: " ++ outer ++ "\n"
  | [outer, cause] => "Error: " ++ outer ++ "\n\nCaused by:" ++ causeText "    " "    " cause ++ "\n"
  | outer :: causes => "Error: " ++ outer ++ "\n\nCaused by:" ++ numberedCauses 0 causes ++ "\n"

/-- the failure that a session's error comes to -/
def sessionFailure : Session.SessionError → Failure
  | .invariant v => [(Session.SessionError.invariant v).message, v.message]
  | e => [e.message]

end RepoTutor.Cli
