/-
What an operation tells the learner, as data, as terminal lines and as JSON.
-/
import RepoTutor.Repo.State

namespace RepoTutor.Transition

open Repo
open Json (Value)

inductive ChangeKind where
  | added
  | modified
  | deleted
  deriving DecidableEq, Repr

structure FileChange where
  path : Path
  change : ChangeKind
  deriving DecidableEq, Repr

/-- pending edits against the commit that HEAD stands for -/
structure StatusReport where
  branch : Option BranchName
  detachedAt : Option CommitId
  unborn : Bool
  merging : Bool
  staged : List FileChange
  unstaged : List FileChange
  untracked : List Path
  deriving DecidableEq, Repr

structure LogEntry where
  id : CommitId
  parents : List CommitId
  author : String
  timestamp : Nat
  message : String
  /-- names that point at the commit, HEAD first -/
  refs : List String
  deriving DecidableEq, Repr

inductive Output where
  | message (lines : List String)
  | log (entries : List LogEntry) (oneline : Bool)
  | status (report : StatusReport)
  | branches (current : Option BranchName) (detachedAt : Option CommitId) (names : List BranchName)
  deriving DecidableEq, Repr

/-! ## Terminal lines -/

def ChangeKind.label : ChangeKind → String
  | added => "new file:"
  | modified => "modified:"
  | deleted => "deleted: "

namespace StatusReport

def isClean (s : StatusReport) : Bool :=
  !s.merging && s.staged.isEmpty && s.unstaged.isEmpty && s.untracked.isEmpty

def headLine (s : StatusReport) : List String :=
  match s.branch, s.detachedAt with
  | _, some id => ["HEAD detached at " ++ short id]
  | some name, none => ["On branch " ++ name]
  | none, none => []

/-- a titled list of changes, left out when it is empty -/
def sectionLines (title : String) (changes : List FileChange) : List String :=
  if changes.isEmpty then []
  else "" :: title :: changes.map (fun c => "\t" ++ c.change.label ++ "   " ++ c.path)

def render (s : StatusReport) : List String :=
  s.headLine
    ++ (if s.unborn then ["", "No commits yet"] else [])
    ++ (if s.merging then
      ["", "All conflicts fixed but you are still merging.", "  (use \"git commit\" to conclude merge)"] else [])
    ++ sectionLines "Changes to be committed:" s.staged
    ++ sectionLines "Changes not staged for commit:" s.unstaged
    ++ (if s.untracked.isEmpty then [] else "" :: "Untracked files:" :: s.untracked.map ("\t" ++ ·))
    ++ (if s.isClean then
      ["", if s.unborn then "nothing to commit (create/copy files and use \"git add\" to track)"
        else "nothing to commit, working tree clean"] else [])

end StatusReport

namespace LogEntry

def decoration (e : LogEntry) : String :=
  if e.refs.isEmpty then "" else " (" ++ Text.joinWith ", " e.refs ++ ")"

def summary (e : LogEntry) : String := (Text.lines e.message).head?.getD ""

def onelineText (e : LogEntry) : String := short e.id ++ e.decoration ++ " " ++ e.summary

def lines (e : LogEntry) : List String :=
  ["commit " ++ e.id ++ e.decoration]
    ++ (if e.parents.length > 1 then ["Merge: " ++ Text.joinWith " " (e.parents.map short)] else [])
    ++ ["Author: " ++ e.author, "Date:   tick " ++ Text.natText e.timestamp, ""]
    ++ (Text.lines e.message).map ("    " ++ ·)
    ++ [""]

end LogEntry

namespace Output

/-- the line of a branch, the current one marked -/
def branchLine (current : Option BranchName) (name : BranchName) : String :=
  (if current = some name then "* " else "  ") ++ name

def render : Output → List String
  | message lines => lines
  | log entries true => entries.map LogEntry.onelineText
  | log entries false => entries.flatMap LogEntry.lines
  | status report => report.render
  | branches current detachedAt names =>
    detachedAt.toList.map (fun id => "* (HEAD detached at " ++ short id ++ ")")
      ++ names.map (branchLine current)

end Output

/-! ## JSON -/

def ChangeKind.name : ChangeKind → String
  | added => "added"
  | modified => "modified"
  | deleted => "deleted"

def FileChange.toJson (c : FileChange) : Value := .obj [("path", .str c.path), ("change", .str c.change.name)]

def StatusReport.members (s : StatusReport) : List (String × Value) :=
  [("branch", Value.ofOption .str s.branch), ("detached_at", Value.ofOption .str s.detachedAt),
    ("unborn", .bool s.unborn), ("merging", .bool s.merging), ("staged", .arr (s.staged.map FileChange.toJson)),
    ("unstaged", .arr (s.unstaged.map FileChange.toJson)), ("untracked", Value.ofStrings s.untracked)]

def StatusReport.toJson (s : StatusReport) : Value := .obj s.members

def LogEntry.toJson (e : LogEntry) : Value :=
  .obj [("id", .str e.id), ("parents", Value.ofStrings e.parents), ("author", .str e.author),
    ("timestamp", Value.ofNat e.timestamp), ("message", .str e.message), ("refs", Value.ofStrings e.refs)]

def Output.toJson : Output → Value
  | message lines => .obj [("kind", .str "message"), ("lines", Value.ofStrings lines)]
  | log entries oneline =>
    .obj [("kind", .str "log"), ("entries", .arr (entries.map LogEntry.toJson)), ("oneline", .bool oneline)]
  | status report => .obj (("kind", .str "status") :: report.members)
  | branches current detachedAt names =>
    .obj [("kind", .str "branches"), ("current", Value.ofOption .str current),
      ("detached_at", Value.ofOption .str detachedAt), ("names", Value.ofStrings names)]

end RepoTutor.Transition
