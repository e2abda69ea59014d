/-
What can be wrong with a terminal line, and how it is told.
-/

namespace RepoTutor.Command

inductive ParseError where
  | empty
  | unterminatedQuote (line : String)
  | unknownCommand (name : String)
  | missingArgument (command expected : String)
  | invalidArgument (command token reason : String)
  deriving DecidableEq, Repr

namespace ParseError

/-- short name of the cause -/
def code : ParseError → String
  | empty => "empty"
  | unterminatedQuote _ => "unterminated_quote"
  | unknownCommand _ => "unknown_command"
  | missingArgument _ _ => "missing_argument"
  | invalidArgument _ _ _ => "invalid_argument"

def message : ParseError → String
  | empty => "empty command"
  | unterminatedQuote line => "unterminated quote in: " ++ line
  | unknownCommand name => "'" ++ name ++ "' is not a known command"
  | missingArgument command expected => command ++ ": missing " ++ expected
  | invalidArgument command token reason =>
    command ++ ": invalid argument '" ++ token ++ "': " ++ reason

end ParseError

end RepoTutor.Command
