/-
Repositories as JSON.

Reading takes the shape first and then checks the invariants, so a text that is read is a well-formed repository. Only
`head` is required; a missing table is empty, a missing clock is zero, and unknown members are ignored.
-/
import RepoTutor.Json.Parser
import RepoTutor.Json.Record
import RepoTutor.Repo.Invariant

namespace RepoTutor.Repo

open Json (Value)

/-! ## Writing -/

def Commit.toJson (c : Commit) : Value :=
  .obj [("id", .str c.id), ("parents", Value.ofStrings c.parents), ("author", .str c.author),
    ("timestamp", Value.ofNat c.timestamp), ("message", .str c.message), ("tree", Value.ofTable .str c.tree)]

def Head.toJson : Head → Value
  | attached branch => .obj [("kind", .str "attached"), ("target", .str branch)]
  | detached id => .obj [("kind", .str "detached"), ("target", .str id)]

def Edit.toJson (e : Edit) : Value :=
  .obj [("content", Value.ofOption .str e.content), ("staged", .bool e.staged)]

namespace Repository

def toJson (r : Repository) : Value :=
  .obj ([("commits", Value.ofTable Commit.toJson r.commits), ("blobs", Value.ofTable .str r.blobs),
      ("branches", Value.ofTable .str r.branches), ("head", r.head.toJson),
      ("working_tree", Value.ofTable Edit.toJson r.edits)]
    ++ (match r.mergeHead with
      | some id => [("merge_head", .str id)]
      | none => [])
    ++ [("clock", Value.ofNat r.clock)])

end Repository

/-! ## Reading -/

/-- a table of texts -/
def texts? : Value → Option (Table String) := Value.tableOf? Value.str?

def Commit.ofJson? (v : Value) : Option Commit := do
  let r ← v.record? ["id", "parents", "author", "timestamp", "message", "tree"]
  return ⟨← r.required "id" Value.str?, ← r.required "parents" (Value.listOf? Value.str?),
    ← r.required "author" Value.str?, ← r.required "timestamp" Value.nat64?, ← r.required "message" Value.str?,
    ← r.required "tree" texts?⟩

def Head.ofJson? (v : Value) : Option Head := do
  let r ← v.record? ["kind", "target"]
  let target ← r.required "target" Value.str?
  match ← r.required "kind" (Value.plainVariant? ["attached", "detached"]) with
  | "attached" => some (attached target)
  | _ => some (detached target)

def Edit.ofJson? (v : Value) : Option Edit := do
  let r ← v.record? ["content", "staged"]
  return ⟨← r.optional "content" Value.str?, ← r.required "staged" Value.bool?⟩

namespace Repository

/-- a repository's shape, with nothing checked -/
def ofShape? (v : Value) : Option Repository := do
  let r ← v.record? ["commits", "blobs", "branches", "head", "working_tree", "merge_head", "clock"]
  return ⟨← r.defaulted "commits" .empty (Value.tableOf? Commit.ofJson?), ← r.defaulted "blobs" .empty texts?,
    ← r.defaulted "branches" .empty texts?, ← r.required "head" Head.ofJson?,
    ← r.defaulted "working_tree" .empty (Value.tableOf? Edit.ofJson?), ← r.absentable "merge_head" Value.str?,
    ← r.defaulted "clock" 0 Value.nat64?⟩

end Repository

/-- why a value is not a repository -/
inductive LoadError where
  /-- not JSON, or not of the shape of a repository -/
  | malformed
  | violation (v : Violation)
  deriving DecidableEq, Repr

namespace Repository

/-- a well-formed repository -/
def ofJson (v : Value) : Except LoadError Repository :=
  match ofShape? v with
  | none => .error .malformed
  | some r =>
    match r.check with
    | .ok () => .ok r
    | .error violation => .error (.violation violation)

/-- a well-formed repository inside a larger value -/
def ofJson? (v : Value) : Option Repository := (ofJson v).toOption

/-- a well-formed repository from JSON text -/
def ofText (text : String) : Except LoadError Repository :=
  match Value.parse? text with
  | none => .error .malformed
  | some v => ofJson v

end Repository

end RepoTutor.Repo
