/-
Operations as JSON.

An operation is an object whose member `op` names it; branch and merge operations add `action`, a checkout holds its
mode as a nested object. Absent options are written as null and may be missing when read.
-/
import RepoTutor.Command.Operation
import RepoTutor.Json.Record

namespace RepoTutor.Command

open Json (Value)

/-! ## Writing -/

def FastForward.name : FastForward → String
  | allow => "allow"
  | never => "never"
  | only => "only"

def ResetMode.name : ResetMode → String
  | soft => "soft"
  | mixed => "mixed"
  | hard => "hard"

def optionalText (s : Option String) : Value := Value.ofOption .str s

def CheckoutMode.toJson : CheckoutMode → Value
  | any => .obj [("mode", .str "any")]
  | branchOnly => .obj [("mode", .str "branch_only")]
  | detach => .obj [("mode", .str "detach")]
  | create start force =>
    .obj [("mode", .str "create"), ("start", optionalText start), ("force", .bool force)]

/-- the members of an operation besides its name -/
def BranchOp.members : BranchOp → List (String × Value)
  | list => [("action", .str "list")]
  | create name start => [("action", .str "create"), ("name", .str name), ("start", optionalText start)]
  | delete name force => [("action", .str "delete"), ("name", .str name), ("force", .bool force)]
  | rename source target =>
    [("action", .str "rename"), ("from", optionalText source), ("to", .str target)]

/-- the members of an operation besides its name -/
def MergeOp.members : MergeOp → List (String × Value)
  | start source ff commit message =>
    [("action", .str "start"), ("source", .str source), ("ff", .str ff.name), ("commit", .bool commit),
      ("message", optionalText message)]
  | abort => [("action", .str "abort")]

/-- the members of an operation besides its name -/
def CommitArgs.members (a : CommitArgs) : List (String × Value) :=
  [("message", optionalText a.message), ("all", .bool a.all), ("amend", .bool a.amend),
    ("allow_empty", .bool a.allowEmpty), ("author", optionalText a.author)]

namespace Operation

/-- the value of the member `op` -/
def tag : Operation → String
  | init _ => "init"
  | add _ _ => "add"
  | remove _ => "remove"
  | restore _ _ => "restore"
  | commit _ => "commit"
  | branch _ => "branch"
  | checkout _ _ => "checkout"
  | merge _ => "merge"
  | reset _ _ => "reset"
  | log _ _ _ => "log"
  | status => "status"
  | touch _ => "touch"
  | writeFile _ _ _ => "write_file"
  | deleteFile _ => "delete_file"

/-- the members besides `op` -/
def members : Operation → List (String × Value)
  | init initialBranch => [("initial_branch", optionalText initialBranch)]
  | add pathspecs all => [("pathspecs", Value.ofStrings pathspecs), ("all", .bool all)]
  | remove paths => [("paths", Value.ofStrings paths)]
  | restore paths staged => [("paths", Value.ofStrings paths), ("staged", .bool staged)]
  | commit args => args.members
  | branch op => op.members
  | checkout target mode => [("target", .str target), ("mode", mode.toJson)]
  | merge op => op.members
  | reset target mode => [("target", optionalText target), ("mode", .str mode.name)]
  | log target limit oneline =>
    [("target", optionalText target), ("limit", Value.ofOption Value.ofNat limit), ("oneline", .bool oneline)]
  | status => []
  | touch paths => [("paths", Value.ofStrings paths)]
  | writeFile path text append => [("path", .str path), ("text", .str text), ("append", .bool append)]
  | deleteFile paths => [("paths", Value.ofStrings paths)]

def toJson (op : Operation) : Value := .obj (("op", .str op.tag) :: op.members)

end Operation

/-! ## Reading -/

def FastForward.ofJson? (v : Value) : Option FastForward := do
  match ← v.plainVariant? ["allow", "never", "only"] with
  | "allow" => some allow
  | "never" => some never
  | _ => some only

def ResetMode.ofJson? (v : Value) : Option ResetMode := do
  match ← v.plainVariant? ["soft", "mixed", "hard"] with
  | "soft" => some soft
  | "mixed" => some mixed
  | _ => some hard

/-- a variant without fields ignores what else is written -/
def fieldless? {α : Type} (a : α) (rest : Value) : Option α := if rest.isFieldless then some a else none

def CheckoutMode.ofJson? (v : Value) : Option CheckoutMode := do
  let (tag, rest) ← v.tagged? "mode"
  match ← tag.variantNameOrIndex? ["any", "branch_only", "detach", "create"] with
  | "any" => fieldless? any rest
  | "branch_only" => fieldless? branchOnly rest
  | "detach" => fieldless? detach rest
  | _ => do
    let r ← rest.record? ["start", "force"]
    return create (← r.optional "start" Value.str?) (← r.required "force" Value.bool?)

def BranchOp.ofJson? (v : Value) : Option BranchOp := do
  let (tag, rest) ← v.tagged? "action"
  match ← tag.variantNameOrIndex? ["list", "create", "delete", "rename"] with
  | "list" => fieldless? list rest
  | "create" => do
    let r ← rest.record? ["name", "start"]
    return create (← r.required "name" Value.str?) (← r.optional "start" Value.str?)
  | "delete" => do
    let r ← rest.record? ["name", "force"]
    return delete (← r.required "name" Value.str?) (← r.required "force" Value.bool?)
  | _ => do
    let r ← rest.record? ["from", "to"]
    return rename (← r.optional "from" Value.str?) (← r.required "to" Value.str?)

def MergeOp.ofJson? (v : Value) : Option MergeOp := do
  let (tag, rest) ← v.tagged? "action"
  match ← tag.variantNameOrIndex? ["start", "abort"] with
  | "abort" => fieldless? abort rest
  | _ => do
    let r ← rest.record? ["source", "ff", "commit", "message"]
    return start (← r.required "source" Value.str?) (← r.required "ff" FastForward.ofJson?)
      (← r.required "commit" Value.bool?) (← r.optional "message" Value.str?)

def CommitArgs.ofJson? (v : Value) : Option CommitArgs := do
  let r ← v.record? ["message", "all", "amend", "allow_empty", "author"]
  return ⟨← r.optional "message" Value.str?, ← r.required "all" Value.bool?, ← r.required "amend" Value.bool?,
    ← r.required "allow_empty" Value.bool?, ← r.optional "author" Value.str?⟩

namespace Operation

/-- the values of the member `op` -/
def tags : List String :=
  ["init", "add", "remove", "restore", "commit", "branch", "checkout", "merge", "reset", "log", "status", "touch",
    "write_file", "delete_file"]

/-- texts of an array -/
def texts? : Value → Option (List String) := Value.listOf? Value.str?

def ofJson? (v : Value) : Option Operation := do
  let (tag, rest) ← v.tagged? "op"
  match ← tag.variantName? tags with
  | "init" => do
    let r ← rest.record? ["initial_branch"]
    return init (← r.optional "initial_branch" Value.str?)
  | "add" => do
    let r ← rest.record? ["pathspecs", "all"]
    return add (← r.required "pathspecs" texts?) (← r.required "all" Value.bool?)
  | "remove" => do
    let r ← rest.record? ["paths"]
    return remove (← r.required "paths" texts?)
  | "restore" => do
    let r ← rest.record? ["paths", "staged"]
    return restore (← r.required "paths" texts?) (← r.required "staged" Value.bool?)
  | "commit" => (CommitArgs.ofJson? rest).map commit
  | "branch" => (BranchOp.ofJson? rest).map branch
  | "checkout" => do
    let r ← rest.record? ["target", "mode"]
    return checkout (← r.required "target" Value.str?) (← r.required "mode" CheckoutMode.ofJson?)
  | "merge" => (MergeOp.ofJson? rest).map merge
  | "reset" => do
    let r ← rest.record? ["target", "mode"]
    return reset (← r.optional "target" Value.str?) (← r.required "mode" ResetMode.ofJson?)
  | "log" => do
    let r ← rest.record? ["target", "limit", "oneline"]
    return log (← r.optional "target" Value.str?) (← r.optional "limit" Value.nat64?)
      (← r.required "oneline" Value.bool?)
  | "status" => fieldless? status rest
  | "touch" => do
    let r ← rest.record? ["paths"]
    return touch (← r.required "paths" texts?)
  | "write_file" => do
    let r ← rest.record? ["path", "text", "append"]
    return writeFile (← r.required "path" Value.str?) (← r.required "text" Value.str?)
      (← r.required "append" Value.bool?)
  | _ => do
    let r ← rest.record? ["paths"]
    return deleteFile (← r.required "paths" texts?)

end Operation

end RepoTutor.Command
