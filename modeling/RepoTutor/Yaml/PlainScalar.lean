/-
What a scalar without quotes means.

It is null, a truth value or a number if it is written like one, and a text otherwise. Whole numbers may be decimal,
hexadecimal, octal or binary; those beyond 64 bits and within 128 have no reading. Digits behind a leading zero are a
text.
-/
import RepoTutor.Numeric.Word
import RepoTutor.Json.Parser
import RepoTutor.Numeric.Literal
import RepoTutor.Yaml.Value

namespace RepoTutor.Yaml

def isNullName (s : String) : Bool := s == "null" || s == "Null" || s == "NULL" || s == "~"

def boolOfName? (s : String) : Option Bool :=
  if s = "true" ∨ s = "True" ∨ s = "TRUE" then some true
  else if s = "false" ∨ s = "False" ∨ s = "FALSE" then some false
  else none

/-! ## Numbers -/

/-- a number in some base: one digit or more -/
def digitsIn? (base : Nat) (cs : List Char) : Option Nat :=
  if cs.isEmpty then none
  else
    cs.foldlM (fun n c => (Json.hexValue? c).bind (fun d => if d < base then some (n * base + d) else none)) 0

/-- digits behind a leading zero -/
def hasLeadingZero (cs : List Char) : Bool :=
  match (Literal.sign cs).2 with
  | '0' :: c :: rest => (c :: rest).all Text.isDigit
  | _ => false

/-- the magnitude of a whole number without its sign -/
def magnitude? : List Char → Option Nat
  | '0' :: 'x' :: rest => digitsIn? 16 rest
  | '0' :: 'o' :: rest => digitsIn? 8 rest
  | '0' :: 'b' :: rest => digitsIn? 2 rest
  | cs => digitsIn? 10 cs

/-- a whole number of any size -/
def whole? (cs : List Char) : Option Int :=
  let (negative, body) := Literal.sign cs
  if hasLeadingZero cs then none
  else (magnitude? body).map (fun n => if negative then -(n : Int) else n)

/-- how far a whole number can be read -/
inductive Size where
  | word
  | tooLarge
  | beyond

/-- 64 bits are read, 128 bits are refused, and beyond those a number is no whole number -/
def sizeOf (n : Int) : Size :=
  if -(wordCount 63 : Int) ≤ n ∧ n < wordCount 64 then .word
  else if -(wordCount 127 : Int) ≤ n ∧ n < wordCount 128 then .tooLarge
  else .beyond

/-- a whole number as text: none, refused, or read -/
def wholeNumber? (cs : List Char) : Option (Option Json.Number) :=
  match whole? cs with
  | none => none
  | some n =>
    match sizeOf n with
    | .word => some (some (.whole n))
    | .tooLarge => some none
    | .beyond => none

/-- a number that may have a fraction or an exponent, or one of the names of infinity and of no number -/
def real? (cs : List Char) : Option Json.Number :=
  let s := String.ofList cs
  let unsigned := match cs with
    | '+' :: rest => rest
    | cs => cs
  let u := String.ofList unsigned
  if u = ".inf" ∨ u = ".Inf" ∨ u = ".INF" then some (.real ⟨0x7FF0000000000000⟩)
  else if s = "-.inf" ∨ s = "-.Inf" ∨ s = "-.INF" then some (.real ⟨0xFFF0000000000000⟩)
  else if s = ".nan" ∨ s = ".NaN" ∨ s = ".NAN" then some (.real ⟨0x7FF8000000000000⟩)
  else if cs.head? == some '+' && (unsigned.head? == some '+' || unsigned.head? == some '-') then none
  else
    match Literal.double? unsigned with
    | some x => if x.isFinite then some (.real x) else none
    | none => none

/-! ## Scalars -/

/-- a scalar without quotes and tag -/
def plainValue? (s : String) : Option Value :=
  let cs := s.toList
  if cs.isEmpty || isNullName s then some .null
  else
    match boolOfName? s with
    | some b => some (.bool b)
    | none =>
      match wholeNumber? cs with
      | some n => n.map .num
      | none =>
        if hasLeadingZero cs then some (.str s)
        else
          match real? cs with
          | some x => some (.num x)
          | none => some (.str s)

/-- a scalar under one of the common tags; under any other it is a text -/
def taggedValue? (tag s : String) : Option Value :=
  if tag = "tag:yaml.org,2002:bool" then (boolOfName? s).map .bool
  else if tag = "tag:yaml.org,2002:int" then (wholeNumber? s.toList).bind (fun n => n.map .num)
  else if tag = "tag:yaml.org,2002:float" then (real? s.toList).map .num
  else if tag = "tag:yaml.org,2002:null" then (if isNullName s then some .null else none)
  else some (.str s)

end RepoTutor.Yaml
