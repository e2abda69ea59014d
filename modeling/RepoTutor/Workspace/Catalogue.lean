/-
The practices of a workspace: every YAML file of one directory.
-/
import RepoTutor.Practice.Reading
import RepoTutor.Workspace.Config
import RepoTutor.Workspace.Files

namespace RepoTutor.Workspace

open Practice

/-- why a command of the program fails: causes from the outermost to the innermost -/
abbrev Failure := List String

/-- the extension of a file's name; a dot at its start begins none -/
def extension? (name : String) : Option String :=
  let back := name.toList.reverse
  match back.dropWhile (· != '.') with
  | [] => none
  | [_] => none
  | _ => some (String.ofList (back.takeWhile (· != '.')).reverse)

def isPracticeFile (name : String) : Bool := extension? name == some "yaml" || extension? name == some "yml"

/-- the practice in a file -/
def loadPractice (t : FileTree) (path : String) : Except Failure Definition :=
  match t.read? path with
  | none => .error ["reading " ++ path, "Is a directory (os error 21)"]
  | some text => (Definition.ofText text).mapError (fun e => ["loading " ++ path, e.message])

/-- a practice in front of those with greater identifiers, behind those with its own -/
def placeById (d : Definition) : List Definition → List Definition
  | [] => [d]
  | e :: rest => if d.id < e.id then d :: e :: rest else e :: placeById d rest

/-- an identifier that two neighbours share -/
def repeatedId? : List Definition → Option String
  | d :: e :: rest => if d.id = e.id then some d.id else repeatedId? (e :: rest)
  | _ => none

/-- the practices in a directory in the order of their identifiers, which have to differ -/
def loadPractices (t : FileTree) (directory : String) : Except Failure (List Definition) :=
  if !t.isDirectory directory then
    .error ["reading " ++ directory,
      if (t.read? directory).isSome then "Not a directory (os error 20)" else "No such file or directory (os error 2)"]
  else do
    let ds ← ((t.children directory).filter isPracticeFile).mapM (fun name => loadPractice t (joinPath directory name))
    let ordered := ds.foldl (fun done d => placeById d done) []
    match repeatedId? ordered with
    | some id => .error ["duplicate practice id '" ++ id ++ "' in " ++ directory]
    | none => .ok ordered

/-- the practices of a workspace, ready to be worked on; those without a branch of their own take the configured one -/
def compilePractices (t : FileTree) (directory branch : String) : Except Failure (List Compiled) := do
  let ds ← (loadPractices t directory).mapError (("loading practices from " ++ directory) :: ·)
  ds.mapM (fun d =>
    ({ d with defaultBranch := some (d.defaultBranch.getD branch) }.compile).mapError CompileError.chain)

end RepoTutor.Workspace
