/-
A tree of files and directories.

A path is looked up by its segments: empty ones and `.` do not count, and `..` goes back. Writing a file makes the
directories above it.
-/
import RepoTutor.Data.Table
import RepoTutor.Text.Basic

namespace RepoTutor.Workspace

structure FileTree where
  files : Table String
  directories : Table Unit
  deriving DecidableEq, Repr

/-- the segments that a path comes to -/
def segments (path : String) : List String :=
  (Text.splitOn '/' path).foldl (fun done s =>
    if s.isEmpty || s == "." then done else if s == ".." then done.dropLast else done ++ [s]) []

/-- the one spelling of a path -/
def plainPath (path : String) : String :=
  (if path.toList.head? == some '/' then "/" else "") ++ Text.joinWith "/" (segments path)

/-- the directories above a path, the outermost first -/
def parents (path : String) : List String :=
  let names := segments path
  (List.range (names.length - 1)).map (fun n =>
    (if path.toList.head? == some '/' then "/" else "") ++ Text.joinWith "/" (names.take (n + 1)))

/-- whether a plain path lies below a directory -/
def isBelow (directory path : String) : Bool := Text.startsWith (directory.toList ++ ['/']) path.toList

namespace FileTree

def empty : FileTree := ⟨.empty, .empty⟩

def read? (t : FileTree) (path : String) : Option String := t.files.get? (plainPath path)

def isDirectory (t : FileTree) (path : String) : Bool := t.directories.contains (plainPath path)

def has (t : FileTree) (path : String) : Bool := (t.read? path).isSome || t.isDirectory path

def addDirectory (t : FileTree) (path : String) : FileTree :=
  { t with directories := t.directories.insertAll ((parents path ++ [plainPath path]).map (fun d => (d, ()))) }

def write (t : FileTree) (path text : String) : FileTree :=
  { files := t.files.insert (plainPath path) text
    directories := t.directories.insertAll ((parents path).map (fun d => (d, ()))) }

/-- make an empty file unless there is a file -/
def touch (t : FileTree) (path : String) : FileTree := if (t.read? path).isSome then t else t.write path ""

/-- remove a file, or a directory with all below it -/
def remove (t : FileTree) (path : String) : FileTree :=
  let p := plainPath path
  let keep (k : String) : Bool := k != p && !isBelow p k
  ⟨t.files.filter (fun k _ => keep k), t.directories.filter (fun k _ => keep k)⟩

/-- names of what stands in a directory, in ascending order -/
def children (t : FileTree) (path : String) : List String :=
  let p := plainPath path
  ascendingKeys ((t.files.keys ++ t.directories.keys).filterMap (fun k =>
    if isBelow p k then
      let name := k.toList.drop (p.length + 1)
      if name.contains '/' then none else some (String.ofList name)
    else none))

end FileTree

end RepoTutor.Workspace
