/-
Which names a branch may be given.
-/
import RepoTutor.Command.Error
import RepoTutor.Text.Basic

namespace RepoTutor.Command

/-- characters that a branch name may hold -/
def isBranchNameChar (c : Char) : Bool :=
  Text.isLatinAlphanumeric c || c == '.' || c == '_' || c == '-' || c == '/'

/-- why a name is refused, if it is; the length counts bytes of the UTF-8 encoding -/
def branchNameFault? (name : String) : Option String :=
  let cs := name.toList
  if name.isEmpty || name.utf8ByteSize > 64 then some "branch names must be 1-64 characters"
  else if !cs.all isBranchNameChar then some "only [A-Za-z0-9._/-] allowed"
  else if cs.head? = some '-' || cs.head? = some '/' then some "must not start with '-' or '/'"
  else if Text.hasInfix ['.', '.'] cs || Text.hasInfix ['/', '/'] cs then some "must not contain '..' or '//'"
  else if cs.getLast? = some '/' || cs.getLast? = some '.' || Text.endsWith ".lock".toList cs then
    some "must not end with '/', '.' or '.lock'"
  else if name = "HEAD" || name = "@" then some "reserved name"
  else none

/-- accept a new branch name or say what is wrong with it -/
def checkBranchName (command name : String) : Except ParseError Unit :=
  match branchNameFault? name with
  | some reason => .error (.invalidArgument command name reason)
  | none => .ok ()

end RepoTutor.Command
