/-
The simulated repository: commits, file contents, branches, HEAD and the edits that are not committed yet.

A repository is a plain value; two with the same tables, HEAD, pending merge and clock are equal. Commits and file
contents are stored under identifiers computed from what they hold. An edit is kept only relative to the commit that
HEAD stands for: a file without an edit has its committed content. The clock counts commits in a 64-bit word (`tick`).
-/
import RepoTutor.Data.Table
import RepoTutor.Hash.Sha256
import RepoTutor.Json.Printer
import RepoTutor.Numeric.Word
import RepoTutor.Text.Basic

namespace RepoTutor.Repo

/-- identifier of a commit: 64 lowercase hexadecimal digits -/
abbrev CommitId := String

/-- identifier of a file's content -/
abbrev BlobId := String

abbrev BranchName := String

abbrev Path := String

/-- files of a commit with the identifiers of their contents -/
abbrev Tree := Table BlobId

/-! ## Identifiers -/

def utf8Bytes (s : String) : List UInt8 := s.toUTF8.toList

/-- digest of a text under a prefix that keeps the kinds of objects apart -/
def digest (domain text : String) : String := Hash.sha256 (utf8Bytes (domain ++ text))

/-- identifier of a file's content -/
def blobId (content : String) : BlobId := digest "gitdojo-blob-v1\n" content

/-- identifier of a commit's body, a JSON value whose members may stand in any order -/
def bodyId (body : Json.Value) : CommitId := digest "gitdojo-commit-v1\n" (Json.canonicalText body)

/-- shape of a commit from the shapes of its parents in order -/
def shapeId (parentShapes : List String) : String :=
  digest "gitdojo-shape-v1\n" (Text.joinWith "," parentShapes)

/-- abbreviated identifier for terminal output -/
def short (id : String) : String := String.ofList (id.toList.take 7)

/-! ## Time -/

/-- the time after a given one: a 64-bit word without overflow checks, as an optimized build has it, so that zero comes
after the last time. A build with the checks stops there; before the last time both count on (`tick_of_lt`). -/
def tick (time : Nat) : Nat := (time + 1) % wordCount 64

theorem tick_of_lt {time : Nat} (h : time + 1 < wordCount 64) : tick time = time + 1 := Nat.mod_eq_of_lt h

/-- after the last time comes zero -/
example : tick (wordCount 64 - 1) = 0 := by decide

theorem tick_lt (time : Nat) : tick time < wordCount 64 := Nat.mod_lt _ (by decide)

/-! ## Commits -/

structure Commit where
  id : CommitId
  parents : List CommitId
  author : String
  /-- value of the logical clock when the commit was made -/
  timestamp : Nat
  message : String
  tree : Tree
  deriving DecidableEq, Repr

namespace Commit

/-- everything that a commit's identifier is computed from -/
def body (parents : List CommitId) (author : String) (timestamp : Nat) (message : String) (tree : Tree) :
    Json.Value :=
  .obj [("parents", Json.Value.ofStrings parents), ("author", .str author),
    ("timestamp", Json.Value.ofNat timestamp), ("message", .str message), ("tree", Json.Value.ofTable .str tree)]

/-- a commit under its own identifier -/
def make (parents : List CommitId) (author : String) (timestamp : Nat) (message : String) (tree : Tree) : Commit :=
  ⟨bodyId (body parents author timestamp message tree), parents, author, timestamp, message, tree⟩

/-- the identifier that belongs to the commit's content -/
def computedId (c : Commit) : CommitId := bodyId (body c.parents c.author c.timestamp c.message c.tree)

def isMerge (c : Commit) : Bool := c.parents.length > 1

/-- first line of the message -/
def summary (c : Commit) : String := (Text.lines c.message).head?.getD ""

end Commit

/-- where HEAD is -/
inductive Head where
  /-- HEAD follows a branch, which need not exist yet -/
  | attached (branch : BranchName)
  | detached (id : CommitId)
  deriving DecidableEq, Repr

/-- one uncommitted change of a file; without content the file is deleted -/
structure Edit where
  content : Option String
  staged : Bool
  deriving DecidableEq, Repr

structure Repository where
  commits : Table Commit
  blobs : Table String
  branches : Table CommitId
  head : Head
  edits : Table Edit
  /-- the commit that is being merged in -/
  mergeHead : Option CommitId
  clock : Nat
  deriving DecidableEq, Repr

def defaultBranch : BranchName := "main"

def defaultAuthor : String := "Learner <learner@gitdojo.local>"

namespace Repository

/-- the repository without commits, HEAD attached to a branch that does not exist yet -/
def new (branch : BranchName) : Repository :=
  ⟨.empty, .empty, .empty, .attached branch, .empty, none, 0⟩

/-- branch that HEAD is attached to -/
def currentBranch (r : Repository) : Option BranchName :=
  match r.head with
  | .attached name => some name
  | .detached _ => none

/-- commit at which HEAD is detached -/
def detachedAt (r : Repository) : Option CommitId :=
  match r.head with
  | .attached _ => none
  | .detached id => some id

/-- commit that HEAD stands for; none on a branch that does not exist yet -/
def headId (r : Repository) : Option CommitId :=
  match r.head with
  | .attached name => r.branches.get? name
  | .detached id => some id

def headCommit (r : Repository) : Option Commit := r.headId.bind r.commits.get?

def isUnborn (r : Repository) : Bool := r.headId.isNone

/-- files of a commit; none when there is no such commit -/
def treeOf (r : Repository) (id : Option CommitId) : Tree :=
  match id.bind r.commits.get? with
  | some c => c.tree
  | none => .empty

/-- files of the commit that HEAD stands for -/
def headTree (r : Repository) : Tree := r.treeOf r.headId

/-- content of a file in a tree -/
def contentIn (r : Repository) (tree : Tree) (path : Path) : Option String := (tree.get? path).bind r.blobs.get?

/-- content of a file in the commit that HEAD stands for -/
def committedContent (r : Repository) (path : Path) : Option String := r.contentIn r.headTree path

/-- content of a file as the learner sees it -/
def fileContent (r : Repository) (path : Path) : Option String :=
  match r.edits.get? path with
  | some e => e.content
  | none => r.committedContent path

/-- whether some edit is staged -/
def hasStaged (r : Repository) : Bool := r.edits.any (fun _ e => e.staged)

/-- no pending edits and no pending merge -/
def isClean (r : Repository) : Bool := r.edits.isEmpty && r.mergeHead.isNone

/-- how HEAD is called in messages -/
def headLabel (r : Repository) : String := r.currentBranch.getD "HEAD"

end Repository

end RepoTutor.Repo
