/-
Records and variants inside JSON values.

A record with named fields may be written as an object, whose members stand in any order and may include unknown ones,
or as an array of the fields in their order. A named field may occur once only. A variant is named by a tag: a member
of the object that also holds the variant's fields, or the first item of the array.
-/
import RepoTutor.Json.Value

namespace RepoTutor.Json

/-- the fields of a record as they were written -/
structure Record where
  field? : String → Option Value
  /-- written as an array: every field without a default has to be present -/
  listed : Bool

/-- how often a key occurs -/
def occurrences (members : List (String × Value)) (key : String) : Nat :=
  (members.filter (fun m => m.1 == key)).length

/-- value of the first member with this key -/
def first? (members : List (String × Value)) (key : String) : Option Value :=
  (members.find? (fun m => m.1 == key)).map (·.2)

/-- a value as a record with these field names -/
def Value.record? (names : List String) : Value → Option Record
  | .obj members =>
    if names.all (fun n => occurrences members n ≤ 1) then some ⟨first? members, false⟩ else none
  | .arr items =>
    if items.length ≤ names.length then some ⟨first? (names.zip items), true⟩ else none
  | _ => none

namespace Record

variable {α : Type}

/-- a field that has to be present -/
def required (r : Record) (name : String) (read : Value → Option α) : Option α :=
  (r.field? name).bind read

/-- a field that may be null; it may also be missing, unless the record is an array -/
def optional (r : Record) (name : String) (read : Value → Option α) : Option (Option α) :=
  match r.field? name with
  | none => if r.listed then none else some none
  | some .null => some none
  | some v => (read v).map some

/-- a field with a value for the case that it is missing -/
def defaulted (r : Record) (name : String) (standard : α) (read : Value → Option α) : Option α :=
  match r.field? name with
  | none => some standard
  | some v => read v

/-- a field that may be missing or null -/
def absentable (r : Record) (name : String) (read : Value → Option α) : Option (Option α) :=
  match r.field? name with
  | none => some none
  | some .null => some none
  | some v => (read v).map some

end Record

namespace Value

/-- the tag of a variant and what is left for its fields -/
def tagged? (tag : String) : Value → Option (Value × Value)
  | .obj members =>
    if occurrences members tag = 1 then
      (first? members tag).map (fun v => (v, .obj (members.filter (fun m => m.1 != tag))))
    else none
  | .arr (v :: rest) => some (v, .arr rest)
  | _ => none

/-- a variant's name -/
def variantName? (names : List String) : Value → Option String
  | .str s => if names.contains s then some s else none
  | _ => none

/-- a variant's name, or its number in the list of names -/
def variantNameOrIndex? (names : List String) : Value → Option String
  | .str s => if names.contains s then some s else none
  | .num (.whole n) => if 0 ≤ n then names[n.toNat]? else none
  | _ => none

/-- nothing: null, or an object without members -/
def isVoid : Value → Bool
  | .null => true
  | .obj [] => true
  | _ => false

/-- a variant without fields: its name, or an object that maps the name to nothing -/
def plainVariant? (names : List String) : Value → Option String
  | .str s => if names.contains s then some s else none
  | .obj [(s, v)] => if names.contains s && v.isVoid then some s else none
  | _ => none

/-- whether a value can stand for the fields of a variant that has none -/
def isFieldless : Value → Bool
  | .obj _ => true
  | .arr _ => true
  | _ => false

/-- the items of an array, each read -/
def listOf? {α : Type} (read : Value → Option α) : Value → Option (List α)
  | .arr items => items.mapM read
  | _ => none

/-- the members of an object, each value read; the last of one key stays -/
def tableOf? {α : Type} (read : Value → Option α) : Value → Option (Table α)
  | .obj members => (members.mapM (fun m => (read m.2).map (fun v => (m.1, v)))).map Table.ofList
  | _ => none

end Value

end RepoTutor.Json
