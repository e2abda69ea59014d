/-
The configuration of a workspace and the JSON file that holds it.

Every key has a default, and the file holds only the keys that were set, so the others keep following the defaults.
Setting a key checks the whole configuration before anything is written. The text of the file is Unicode: bytes that are
no UTF-8, and media that fail, are left out.
-/
import RepoTutor.Numeric.Word
import RepoTutor.Command.BranchName
import RepoTutor.Json.Parser
import RepoTutor.Json.Printer
import RepoTutor.Json.Record
import RepoTutor.Numeric.Literal
import RepoTutor.Workspace.Files
import RepoTutor.Workspace.Paths
import RepoTutor.Text.Quoted

namespace RepoTutor.Workspace

open Json (Value)

structure Config where
  /-- branch that HEAD is attached to in a fresh practice -/
  defaultBranch : String := "main"
  /-- file of the saved progress -/
  storePath : String := ".gitdojo/store.db"
  /-- directory of the practices -/
  practicesDir : String := "practices"
  bind : String := "127.0.0.1"
  port : Nat := 7878
  /-- how often saving is tried before it is given up -/
  saveAttempts : Nat := 3
  deriving DecidableEq, Repr

/-- what can be wrong with a configuration -/
inductive ConfigFault where
  | unknownField (name : String)
  /-- a field holds something of another type -/
  | wrongType (found expected : String)
  /-- a number is out of a field's range -/
  | outOfRange (n : Int) (expected : String)
  | branch (e : Command.ParseError)
  | noAttempts
  | blankBind
  deriving DecidableEq, Repr

/-- fields in the order in which a whole configuration is written -/
def fieldNames : List String :=
  ["default_branch", "store_path", "practices_dir", "bind", "port", "save_attempts"]

/-- a name between backquotes -/
def backquoted (s : String) : String := "\x60" ++ s ++ "\x60"

def ConfigFault.message : ConfigFault → String
  | unknownField name =>
    "unknown field " ++ backquoted name ++ ", expected one of " ++ Text.joinWith ", " (fieldNames.map backquoted)
  | wrongType found expected => "invalid type: " ++ found ++ ", expected " ++ expected
  | outOfRange n expected =>
    "invalid value: integer " ++ backquoted (String.ofList (Json.intChars n)) ++ ", expected " ++ expected
  | branch e => e.message
  | noAttempts => "save_attempts must be at least 1"
  | blankBind => "bind must not be empty"

inductive ConfigError where
  /-- the file is not JSON -/
  | unreadable (e : Json.TextError)
  | notAnObject (path : String)
  | invalidFile (path : String) (fault : ConfigFault)
  | unknownKey (key : String)
  | cannotSet (key text : String) (fault : ConfigFault)
  | invalid (fault : ConfigFault)
  deriving DecidableEq, Repr

namespace Config

/-! ## JSON -/

def toJson (c : Config) : Value :=
  .obj [("default_branch", .str c.defaultBranch), ("store_path", .str c.storePath),
    ("practices_dir", .str c.practicesDir), ("bind", .str c.bind), ("port", Value.ofNat c.port),
    ("save_attempts", Value.ofNat c.saveAttempts)]

/-- whether an object has none but known fields -/
def hasKnownFields : Value → Bool
  | .obj members => members.all (fun m => fieldNames.contains m.1)
  | _ => true

/-- a configuration from JSON, missing fields taking their defaults -/
def ofJson? (v : Value) : Option Config := do
  let standard : Config := {}
  let r ← if hasKnownFields v then v.record? fieldNames else none
  return {
    defaultBranch := ← r.defaulted "default_branch" standard.defaultBranch Value.str?
    storePath := ← r.defaulted "store_path" standard.storePath Value.str?
    practicesDir := ← r.defaulted "practices_dir" standard.practicesDir Value.str?
    bind := ← r.defaulted "bind" standard.bind Value.str?
    port := ← r.defaulted "port" standard.port (Value.natBelow? (wordCount 16))
    saveAttempts := ← r.defaulted "save_attempts" standard.saveAttempts Value.nat32? }

/-- every key with its value, in ascending order of the keys -/
def entries (c : Config) : List (String × Value) :=
  match c.toJson.canonical with
  | .obj members => members
  | _ => []

def get? (c : Config) (key : String) : Option Value := c.toJson.member? key

/-- all keys in ascending order -/
def keys : List String := ({} : Config).entries.map (·.1)

/-! ## Checks -/

/-- a value in words -/
def describe : Value → String
  | .null => "null"
  | .bool b => "boolean " ++ backquoted (if b then "true" else "false")
  | .num (.whole n) => "integer " ++ backquoted (String.ofList (Json.intChars n))
  | .num (.real x) => "floating point " ++ backquoted x.toText
  | .str s => "string " ++ Text.quoted s
  | .arr _ => "sequence"
  | .obj _ => "map"

def textFault? (expected : String) : Value → Option ConfigFault
  | .str _ => none
  | v => some (.wrongType (describe v) expected)

def numberFault? (bound : Nat) (expected : String) : Value → Option ConfigFault
  | .num (.whole n) => if 0 ≤ n ∧ n < bound then none else some (.outOfRange n expected)
  | v => some (.wrongType (describe v) expected)

/-- what is wrong with one field -/
def fieldFault? (name : String) (v : Value) : Option ConfigFault :=
  match name with
  | "default_branch" => textFault? "a string" v
  | "store_path" => textFault? "path string" v
  | "practices_dir" => textFault? "path string" v
  | "bind" => textFault? "a string" v
  | "port" => numberFault? (wordCount 16) "u16" v
  | "save_attempts" => numberFault? (wordCount 32) "u32" v
  | _ => some (.unknownField name)

/-- a configuration that can be used -/
def validate (c : Config) : Except ConfigFault Config :=
  match Command.checkBranchName "config" c.defaultBranch with
  | .error e => .error (.branch e)
  | .ok () =>
    if c.saveAttempts = 0 then .error .noAttempts
    else if Text.isBlankText c.bind then .error .blankBind
    else .ok c

/-- a text among the members, or its default -/
def textOf (members : Table Value) (name standard : String) : String :=
  ((members.get? name).bind Value.str?).getD standard

/-- a number among the members, or its default -/
def numberOf (members : Table Value) (name : String) (standard : Nat) : Nat :=
  ((members.get? name).bind (Value.natBelow? (wordCount 32))).getD standard

/-- the configuration that members of the right types come to -/
def ofTable (members : Table Value) : Config :=
  let standard : Config := {}
  { defaultBranch := textOf members "default_branch" standard.defaultBranch
    storePath := textOf members "store_path" standard.storePath
    practicesDir := textOf members "practices_dir" standard.practicesDir
    bind := textOf members "bind" standard.bind
    port := numberOf members "port" standard.port
    saveAttempts := numberOf members "save_attempts" standard.saveAttempts }

/-- the configuration that the members of an object come to -/
def ofMembers (members : Table Value) : Except ConfigFault Config :=
  match members.entries.findSome? (fun m => fieldFault? m.1 m.2) with
  | some fault => .error fault
  | none => (ofTable members).validate

/-! ## The file -/

/-- what is written at a path, or nothing when there is no file -/
abbrev FileText := Option String

/-- members of the object that a file holds; a missing file holds none -/
def readMembers (path : String) : FileText → Except ConfigError (Table Value)
  | none => .ok .empty
  | some text =>
    match Value.parse text with
    | .error e => .error (.unreadable e)
    | .ok v =>
      match v.canonical with
      | .obj members => .ok (Table.ofList members)
      | _ => .error (.notAnObject path)

/-- the configuration that a file comes to -/
def load (path : String) (file : FileText) : Except ConfigError Config := do
  let members ← readMembers path file
  (ofMembers members).mapError (.invalidFile path)

/-- text for the file of a whole configuration -/
def save (c : Config) : Except ConfigError String :=
  match c.validate with
  | .error fault => .error (.invalid fault)
  | .ok c => .ok c.toJson.pretty

/-- a boolean, a whole number, a double or a text as written on the command line; what is no finite number is null -/
def parseValue (text : String) : Value :=
  if text = "true" then .bool true
  else if text = "false" then .bool false
  else
    match Literal.int64? text.toList with
    | some n => Value.ofInt n
    | none =>
      match Literal.double? text.toList with
      | some x => if x.isFinite then .num (.real x) else .null
      | none => .str text

/-- the value of a key from its text: a key of text takes it as it is -/
def valueFor (current : Value) (text : String) : Value :=
  match current with
  | .str _ => .str text
  | _ => parseValue text

/-- the configuration with one key set, and the new text of its file -/
def set (path : String) (file : FileText) (key text : String) : Except ConfigError (Config × String) :=
  match ({} : Config).get? key with
  | none => .error (.unknownKey key)
  | some current => do
    let members ← readMembers path file
    let members := members.insert key (valueFor current text)
    let c ← (ofMembers members).mapError (.cannotSet key text)
    return (c, (Value.obj members.entries).pretty)

/-- what setting a key in a workspace comes to, and the files afterwards: the lock is taken first, which makes the
directory where there is none -/
def setIn (w : Layout) (t : FileTree) (key text : String) : FileTree × Except ConfigError Config :=
  let t := t.touch w.lockFile
  match set w.configFile (t.read? w.configFile) key text with
  | .ok (c, new) => (t.write w.configFile new, .ok c)
  | .error e => (t, .error e)

end Config

/-- causes from the outermost to the innermost -/
def ConfigError.chain : ConfigError → List String
  | unreadable e => [e.message]
  | notAnObject path => [path ++ " is not a JSON object"]
  | invalidFile path fault => ["invalid " ++ path, fault.message]
  | unknownKey key =>
    ["unknown config key \"" ++ key ++ "\" (known keys: " ++ Text.joinWith ", " Config.keys ++ ")"]
  | cannotSet key text fault => ["cannot set " ++ key ++ " to \"" ++ text ++ "\"", fault.message]
  | invalid fault => [fault.message]

end RepoTutor.Workspace
