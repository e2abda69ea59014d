/-
Records inside YAML values.

A record is a mapping from names; null stands for an empty mapping, an empty sequence and an absent optional value. Tags
do not matter. A named field may occur once only.
-/
import RepoTutor.Numeric.Word
import RepoTutor.Data.Table
import RepoTutor.Yaml.Value

namespace RepoTutor.Yaml

namespace Value

def bool? (v : Value) : Option Bool :=
  match v.untag with
  | bool b => some b
  | _ => none

/-- a whole number from zero up to but excluding `bound` -/
def natBelow? (bound : Nat) (v : Value) : Option Nat :=
  match v.untag with
  | num (.whole n) => if 0 ≤ n ∧ n.toNat < bound then some n.toNat else none
  | _ => none

def nat32? : Value → Option Nat := natBelow? (wordCount 32)

def nat64? : Value → Option Nat := natBelow? (wordCount 64)

/-- the items of a sequence, each read -/
def listOf? {α : Type} (read : Value → Option α) (v : Value) : Option (List α) :=
  match v.untag with
  | seq items => items.mapM read
  | null => some []
  | _ => none

/-- the entries of a mapping whose keys are texts -/
def namedEntries? (v : Value) : Option (List (String × Value)) :=
  match v.untag with
  | map entries => entries.mapM (fun e => (str? e.1).map (fun k => (k, e.2)))
  | null => some []
  | _ => none

/-- the entries of a mapping, each value read -/
def tableOf? {α : Type} (read : Value → Option α) (v : Value) : Option (Table α) := do
  let entries ← v.namedEntries?
  let read ← entries.mapM (fun e => (read e.2).map (fun a => (e.1, a)))
  return Table.ofList read

end Value

/-- the fields of a record -/
structure Record where
  entries : List (String × Value)

namespace Record

variable {α : Type}

/-- a value as a record with these field names -/
def ofValue? (names : List String) (v : Value) : Option Record := do
  let entries ← v.namedEntries?
  if names.all (fun n => (entries.filter (fun e => e.1 == n)).length ≤ 1) then some ⟨entries⟩ else none

def field? (r : Record) (name : String) : Option Value := (r.entries.find? (fun e => e.1 == name)).map (·.2)

/-- a field that has to be present -/
def required (r : Record) (name : String) (read : Value → Option α) : Option α := (r.field? name).bind read

/-- a field that may be missing or null -/
def optional (r : Record) (name : String) (read : Value → Option α) : Option (Option α) :=
  match r.field? name with
  | none => some none
  | some .null => some none
  | some v => (read v).map some

/-- a field with a value for the case that it is missing -/
def defaulted (r : Record) (name : String) (standard : α) (read : Value → Option α) : Option α :=
  match r.field? name with
  | none => some standard
  | some v => read v

end Record

end RepoTutor.Yaml
