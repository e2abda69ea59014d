/-
Practices as YAML texts.

Rules and expected commands may be written in a short form, which is spelled out first: a rule by its type alone or by
a single entry from its type to its value, an expected command by its line. The fields are read after that, and the
practice as a whole is checked last.
-/
import RepoTutor.Command.BranchName
import RepoTutor.Practice.Definition
import RepoTutor.Yaml.Document
import RepoTutor.Yaml.Record

namespace RepoTutor.Practice

open Repo Grading Command
open Yaml (Value Record)

/-- why a text is not a practice -/
inductive DefinitionError where
  | notYaml
  | rulesNotList
  /-- a rule that is neither a text nor a mapping, as it appears in messages -/
  | ruleShape (shown : String)
  /-- a short rule with some number of keys other than one -/
  | ruleKeys (count : Nat)
  | ruleKeyNotText
  | unknownRule (name : String)
  | expectedCommandsNotList
  | fields
  | idNotKebab (id : String)
  | emptyTitle (id : String)
  | goalGivenTwice (id : String)
  | versionZero (id : String)
  | branchName (cause : ParseError)
  | emptyExpectedCommand (id : String)
  deriving DecidableEq, Repr

namespace DefinitionError

def message : DefinitionError → String
  | notYaml => "invalid YAML syntax"
  | rulesNotList => "rules must be a list"
  | ruleShape shown => "rule must be a string or a mapping, got: " ++ shown
  | ruleKeys count => "short-form rule must have exactly one key, got " ++ Text.natText count
  | ruleKeyNotText => "rule key must be a string"
  | unknownRule name => "unknown rule type: \"" ++ name ++ "\". Valid types: " ++ Text.joinWith ", " ruleTypes
  | expectedCommandsNotList => "expected_commands must be a list"
  | fields => "practice schema validation failed"
  | idNotKebab id => "practice id must be kebab-case: \"" ++ id ++ "\""
  | emptyTitle id => "practice '" ++ id ++ "' has an empty title"
  | goalGivenTwice id => "practice '" ++ id ++ "': goal takes either \x60state\x60 or \x60commands\x60, not both"
  | versionZero id => "practice '" ++ id ++ "': version must be at least 1"
  | branchName cause => cause.message
  | emptyExpectedCommand id => "practice '" ++ id ++ "': empty expected command"

end DefinitionError

/-! ## Short forms -/

/-- a rule spelled out: a mapping with its type, and with its value unless that is null -/
def spelledRule (kind : String) (v : Value) : Except DefinitionError Value :=
  if !ruleTypes.contains kind then .error (.unknownRule kind)
  else
    .ok (.map ((Value.str "type", Value.str kind) :: (if v.isNull then [] else [(Value.str "value", v)])))

def spellOutRule : Value → Except DefinitionError Value
  | .str kind => spelledRule kind .null
  | .map entries =>
    if entries.any (fun e => Value.same e.1 (.str "type")) then .ok (.map entries)
    else
      match entries with
      | [(k, v)] =>
        match k.str? with
        | some kind => spelledRule kind v
        | none => .error .ruleKeyNotText
      | _ => .error (.ruleKeys entries.length)
  | v => .error (.ruleShape v.debugText)

def spellOutCommand : Value → Value
  | .str line => .map [(.str "command", .str line)]
  | v => v

/-- change the value of a text key of a mapping -/
def alter (key : String) (f : Value → Except DefinitionError Value) : Value → Except DefinitionError Value
  | .tagged tag v => (alter key f v).map (.tagged tag)
  | .map entries => do
    let entries ← entries.mapM (fun e =>
      if Value.same e.1 (.str key) then (f e.2).map (fun v => (e.1, v)) else .ok e)
    return .map entries
  | v => .ok v

def spellOut (v : Value) : Except DefinitionError Value := do
  let v ← alter "rules" (fun
    | .seq items => (items.mapM spellOutRule).map .seq
    | .null => .ok .null
    | _ => .error .rulesNotList) v
  alter "expected_commands" (fun
    | .seq items => .ok (.seq (items.map spellOutCommand))
    | .null => .ok .null
    | _ => .error .expectedCommandsNotList) v

/-! ## Fields -/

def texts? : Value → Option (List String) := Value.listOf? Value.str?

def commit? (v : Value) : Option Commit := do
  let r ← Record.ofValue? ["id", "parents", "author", "timestamp", "message", "tree"] v
  return ⟨← r.required "id" Value.str?, ← r.required "parents" texts?, ← r.required "author" Value.str?,
    ← r.required "timestamp" Value.nat64?, ← r.required "message" Value.str?,
    ← r.required "tree" (Value.tableOf? Value.str?)⟩

/-- a name given as a text or as the tag of null -/
def name? : Value → Option String
  | .str s => some s
  | .tagged tag v => if v.isNull then some tag else none
  | _ => none

def head? (v : Value) : Option Head := do
  let r ← Record.ofValue? ["kind", "target"] v
  let target ← r.required "target" Value.str?
  match ← r.required "kind" name? with
  | "attached" => some (.attached target)
  | "detached" => some (.detached target)
  | _ => none

def edit? (v : Value) : Option Edit := do
  let r ← Record.ofValue? ["content", "staged"] v
  return ⟨← r.optional "content" Value.str?, ← r.required "staged" Value.bool?⟩

/-- a well-formed repository -/
def repository? (v : Value) : Option Repository := do
  let r ← Record.ofValue? ["commits", "blobs", "branches", "head", "working_tree", "merge_head", "clock"] v
  let shape : Repository :=
    ⟨← r.defaulted "commits" .empty (Value.tableOf? commit?),
      ← r.defaulted "blobs" .empty (Value.tableOf? Value.str?),
      ← r.defaulted "branches" .empty (Value.tableOf? Value.str?), ← r.required "head" head?,
      ← r.defaulted "working_tree" .empty (Value.tableOf? edit?), ← r.optional "merge_head" Value.str?,
      ← r.defaulted "clock" 0 Value.nat64?⟩
  (shape.check.toOption).map (fun _ => shape)

def goal? (v : Value) : Option Goal := do
  let r ← Record.ofValue? ["commands", "state"] v
  return ⟨← r.defaulted "commands" [] texts?, ← r.optional "state" repository?⟩

def expectedCommand? (v : Value) : Option ExpectedCommand := do
  let r ← Record.ofValue? ["command", "required"] v
  return ⟨← r.required "command" Value.str?, ← r.defaulted "required" true Value.bool?⟩

def rule? (v : Value) : Option Rule := do
  let r ← Record.ofValue? ["type", "value", "message", "required"] v
  let raw : RawRule :=
    ⟨← r.required "type" Value.str?, ← r.defaulted "value" .null Value.toJson?, ← r.optional "message" Value.str?,
      ← r.defaulted "required" true Value.bool?⟩
  raw.check.toOption

def definition? (v : Value) : Option Definition := do
  let r ← Record.ofValue? ["id", "title", "description", "version", "default_branch", "setup", "goal",
    "expected_commands", "ordered", "rules", "hints"] v
  return ⟨← r.required "id" Value.str?, ← r.required "title" Value.str?, ← r.optional "description" Value.str?,
    ← r.defaulted "version" 1 Value.nat32?, ← r.optional "default_branch" Value.str?,
    ← r.defaulted "setup" [] texts?, ← r.defaulted "goal" {} goal?,
    ← r.defaulted "expected_commands" [] (Value.listOf? expectedCommand?), ← r.defaulted "ordered" false Value.bool?,
    ← r.defaulted "rules" [] (Value.listOf? rule?), ← r.defaulted "hints" [] texts?⟩

/-! ## The practice as a whole -/

/-- small letters, digits and single hyphens between them -/
def isKebab (s : String) : Bool :=
  let cs := s.toList
  !cs.isEmpty && cs.head? != some '-' && cs.getLast? != some '-' && !Text.hasInfix ['-', '-'] cs
    && cs.all (fun c => ('a' ≤ c && c ≤ 'z') || Text.isDigit c || c == '-')

/-- accept a practice or say what is wrong with it -/
def Definition.check (d : Definition) : Except DefinitionError Unit := do
  if !isKebab d.id then throw (.idNotKebab d.id)
  if Text.isBlankText d.title then throw (.emptyTitle d.id)
  if d.goal.state.isSome && !d.goal.commands.isEmpty then throw (.goalGivenTwice d.id)
  if d.version = 0 then throw (.versionZero d.id)
  match d.defaultBranch with
  | some name => (checkBranchName "default_branch" name).mapError .branchName
  | none => .ok ()
  if d.expectedCommands.any (fun c => Text.isBlankText c.command) then throw (.emptyExpectedCommand d.id)

/-- a practice from YAML text -/
def Definition.ofText (text : String) : Except DefinitionError Definition := do
  let v ← match Value.ofText? text with
    | some v => .ok v
    | none => .error .notYaml
  let v ← spellOut v
  let d ← match definition? v with
    | some d => .ok d
    | none => .error .fields
  d.check
  return d

end RepoTutor.Practice
