/-
YAML values.

A mapping keeps its entries in the order of the text and holds no key twice. `debugText` is the form in which a value
appears in messages; `toJson?` is the JSON value of the same content, if there is one.
-/
import RepoTutor.Json.Printer
import RepoTutor.Text.Quoted

namespace RepoTutor.Yaml

inductive Value where
  | null
  | bool (b : Bool)
  | num (n : Json.Number)
  | str (s : String)
  | seq (items : List Value)
  | map (entries : List (Value × Value))
  /-- a value under a tag of the text's own -/
  | tagged (tag : String) (v : Value)
  deriving Repr

namespace Value

instance : Inhabited Value := ⟨null⟩

/-- whether two numbers are equal as keys: both zeros are, and all that are no numbers are -/
def sameNumber : Json.Number → Json.Number → Bool
  | .whole m, .whole n => m == n
  | .real x, .real y => x == y || (x.isNaN && y.isNaN) || (x.isZero && y.isZero)
  | _, _ => false

mutual

/-- whether two values are equal as keys; the order of a mapping's entries does not matter -/
def same : Value → Value → Bool
  | null, null => true
  | bool a, bool b => a == b
  | num a, num b => sameNumber a b
  | str a, str b => a == b
  | seq a, seq b => sameItems a b
  | map a, map b => a.length == b.length && containsEntries a b
  | tagged s a, tagged t b => s == t && same a b
  | _, _ => false

def sameItems : List Value → List Value → Bool
  | [], [] => true
  | a :: as', b :: bs => same a b && sameItems as' bs
  | _, _ => false

/-- whether every entry of the first list is one of the second -/
def containsEntries : List (Value × Value) → List (Value × Value) → Bool
  | [], _ => true
  | (k, v) :: rest, entries => entries.any (fun e => same k e.1 && same v e.2) && containsEntries rest entries

end

/-! ## In messages -/

/-- decimal text of a number; infinities and what is no number have names -/
def numberText : Json.Number → String
  | .whole n => String.ofList (Json.intChars n)
  | .real x =>
    if x.isNaN then ".nan"
    else if !x.isFinite then (if x.isNegative then "-.inf" else ".inf")
    else x.toText

mutual

/-- a value as it appears in messages -/
def debugText : Value → String
  | null => "Null"
  | bool true => "Bool(true)"
  | bool false => "Bool(false)"
  | num n => "Number(" ++ numberText n ++ ")"
  | str s => "String(" ++ Text.quoted s ++ ")"
  | seq items => "Sequence [" ++ itemsText items ++ "]"
  | map entries => "Mapping \x7b" ++ entriesText entries ++ "\x7d"
  | tagged tag v => "TaggedValue \x7b tag: !" ++ tag ++ ", value: " ++ debugText v ++ " \x7d"

def itemsText : List Value → String
  | [] => ""
  | [v] => debugText v
  | v :: rest => debugText v ++ ", " ++ itemsText rest

def entriesText : List (Value × Value) → String
  | [] => ""
  | [(k, v)] => keyText k ++ ": " ++ debugText v
  | (k, v) :: rest => keyText k ++ ": " ++ debugText v ++ ", " ++ entriesText rest

/-- a key as it appears in messages -/
def keyText : Value → String
  | bool true => "true"
  | bool false => "false"
  | num n => numberText n
  | str s => Text.quoted s
  | null => "Null"
  | seq items => "Sequence [" ++ itemsText items ++ "]"
  | map entries => "Mapping \x7b" ++ entriesText entries ++ "\x7d"
  | tagged tag v => "TaggedValue \x7b tag: !" ++ tag ++ ", value: " ++ debugText v ++ " \x7d"

end

/-! ## As JSON -/

/-- the value without its tags -/
def untag : Value → Value
  | tagged _ v => untag v
  | v => v

/-- the text of a value that is one -/
def str? (v : Value) : Option String :=
  match v.untag with
  | str s => some s
  | _ => none

mutual

/-- the same content in JSON; keys have to be texts, and there are no tags -/
def toJson? : Value → Option Json.Value
  | null => some .null
  | bool b => some (.bool b)
  | num (.whole n) => some (.num (.whole n))
  | num (.real x) => some (if x.isFinite then .num (.real x) else .null)
  | str s => some (.str s)
  | seq items => (itemsJson? items).map .arr
  | map entries => (entriesJson? entries).map .obj
  | tagged _ _ => none

def itemsJson? : List Value → Option (List Json.Value)
  | [] => some []
  | v :: rest => do
    let v ← toJson? v
    let rest ← itemsJson? rest
    return v :: rest

def entriesJson? : List (Value × Value) → Option (List (String × Json.Value))
  | [] => some []
  | (k, v) :: rest => do
    let name ← str? k
    let v ← toJson? v
    let rest ← entriesJson? rest
    return (name, v) :: rest

end

def isNull (v : Value) : Bool :=
  match v.untag with
  | null => true
  | _ => false

/-- value of a text key in a mapping -/
def get? (v : Value) (key : String) : Option Value :=
  match v.untag with
  | map entries => (entries.find? (fun e => same e.1 (str key))).map (·.2)
  | _ => none

end Value

end RepoTutor.Yaml
