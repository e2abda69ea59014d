/-
Numbers written as text.

A whole number is an optional sign and digits within the range of a signed 64-bit word. A double is an optional sign and
digits with at most one point and an exponent, or the name of infinity or of no number in any case.
-/
import RepoTutor.Numeric.Word
import RepoTutor.Numeric.Binary64

namespace RepoTutor.Literal

/-- the sign at the front: whether it is a minus, and the rest -/
def sign : List Char → Bool × List Char
  | '-' :: rest => (true, rest)
  | '+' :: rest => (false, rest)
  | cs => (false, cs)

/-- a whole number from -2^63 up to but excluding 2^63 -/
def int64? (cs : List Char) : Option Int :=
  let (negative, ds) := sign cs
  if ds.isEmpty || !ds.all Text.isDigit then none
  else
    let n := Text.digitsValue ds
    if negative then (if n ≤ wordCount 63 then some (-(n : Int)) else none)
    else (if n < wordCount 63 then some n else none)

/-- a whole number of one digit or more with an optional sign -/
def exponentValue? (cs : List Char) : Option Int :=
  let (negative, ds) := sign cs
  if ds.isEmpty || !ds.all Text.isDigit then none
  else some (if negative then -(Text.digitsValue ds : Int) else Text.digitsValue ds)

/-- the exponent after a mantissa; zero when nothing is left -/
def exponent? : List Char → Option Int
  | [] => some 0
  | c :: rest => if c = 'e' ∨ c = 'E' then exponentValue? rest else none

/-- a positive infinity or no number by its name -/
def special? (cs : List Char) : Option Binary64 :=
  let name := String.ofList (cs.map Text.latinLower)
  if name = "inf" ∨ name = "infinity" then some ⟨0x7FF0000000000000⟩
  else if name = "nan" then some ⟨0x7FF8000000000000⟩
  else none

/-- the number with its sign set -/
def withSign (negative : Bool) (x : Binary64) : Binary64 :=
  if negative then ⟨x.bits ||| 0x8000000000000000⟩ else x

/-- a double, rounded to the nearest -/
def double? (cs : List Char) : Option Binary64 :=
  let (negative, body) := sign cs
  match special? body with
  | some x => some (withSign negative x)
  | none =>
    let whole := body.takeWhile Text.isDigit
    let (fraction, rest) := match body.dropWhile Text.isDigit with
      | '.' :: rest => (rest.takeWhile Text.isDigit, rest.dropWhile Text.isDigit)
      | rest => ([], rest)
    if whole.isEmpty && fraction.isEmpty then none
    else
      match exponent? rest with
      | none => none
      | some e =>
        some (Binary64.ofDecimal negative (Text.digitsValue (whole ++ fraction)) (e - fraction.length))

end RepoTutor.Literal
