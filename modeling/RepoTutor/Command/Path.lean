/-
Paths of files inside a repository.
-/
import RepoTutor.Command.Error
import RepoTutor.Text.Basic

namespace RepoTutor.Command

/-- drop every `./` at the front -/
def dropHere : List Char → List Char
  | '.' :: '/' :: rest => dropHere rest
  | cs => cs

/-- the path without leading `./`; refused when it is empty, begins at the root, or has an empty segment or `..` -/
def normalizePath (command raw : String) : Except ParseError String :=
  let cs := dropHere raw.toList
  if cs.isEmpty || cs.head? = some '/' then
    .error (.invalidArgument command raw "expected a path inside the repository")
  else if (Text.splitChars (· == '/') cs).any (fun seg => seg = ['.', '.'] || seg.isEmpty) then
    .error (.invalidArgument command raw "malformed path")
  else .ok (String.ofList cs)

end RepoTutor.Command
