/-
Double-precision numbers as 64-bit words, with exact rational rounding.

A finite word stands for `significand · 2^exponent`. `ofRatio` rounds a quotient of natural numbers to the nearest word,
a tie going to the even significand; every other construction goes through it. `fixed` writes a value with a given
number of decimal places and `Binary64.shortest` finds the fewest decimal digits that read back as the same word.
-/
import RepoTutor.Numeric.Word
import RepoTutor.Text.Basic

namespace RepoTutor

/-- a double-precision number, given by its 64 bits -/
structure Binary64 where
  bits : UInt64
  deriving DecidableEq, Repr

namespace Binary64

/-- quotient rounded to the nearest natural number, a tie to the even one -/
def roundQuotient (num den : Nat) : Nat :=
  let q := num / den
  let r := num % den
  if den < 2 * r || (2 * r == den && q % 2 == 1) then q + 1 else q

/-- `n · 2^e` over `d`, rounded -/
def roundScaled (n : Nat) (e : Int) (d : Nat) : Nat :=
  roundQuotient (n * Nat.pow 2 e.toNat) (d * Nat.pow 2 (-e).toNat)

def signBit (negative : Bool) : Nat := if negative then wordCount 63 else 0

/-- the word of infinity without its sign -/
def infinityWord : Nat := 2047 * Nat.pow 2 52

/-- the double nearest to `num / den` with the given sign -/
def ofRatio (negative : Bool) (num den : Nat) : Binary64 :=
  if num = 0 then ⟨UInt64.ofNat (signBit negative)⟩
  else
    let guess : Int := (Nat.log2 num : Int) - (Nat.log2 den : Int) - 52
    let small := num * Nat.pow 2 (-guess).toNat < den * Nat.pow 2 (52 + guess.toNat)
    let e : Int := max (if small then guess - 1 else guess) (-1074)
    let m := roundScaled num (-e) den
    let word := (e + 1074).toNat * Nat.pow 2 52 + m
    ⟨UInt64.ofNat (signBit negative + min word infinityWord)⟩

/-- the double nearest to `digits · 10^exponent` with the given sign -/
def ofDecimal (negative : Bool) (digits : Nat) (exponent : Int) : Binary64 :=
  let magnitude : Int := (Nat.log2 digits : Int) / 4 + exponent
  if digits = 0 then ofRatio negative 0 1
  else if magnitude > 400 then ⟨UInt64.ofNat (signBit negative + infinityWord)⟩
  else if (Nat.log2 digits : Int) / 3 + 1 + exponent < -400 then ofRatio negative 0 1
  else ofRatio negative (digits * Nat.pow 10 exponent.toNat) (Nat.pow 10 (-exponent).toNat)

def ofNat (n : Nat) : Binary64 := ofRatio false n 1

def isNegative (x : Binary64) : Bool := wordCount 63 ≤ x.bits.toNat

def exponentField (x : Binary64) : Nat := x.bits.toNat / Nat.pow 2 52 % 2048

def fractionField (x : Binary64) : Nat := x.bits.toNat % Nat.pow 2 52

/-- neither infinite nor not a number -/
def isFinite (x : Binary64) : Bool := x.exponentField != 2047

def isNaN (x : Binary64) : Bool := x.exponentField == 2047 && x.fractionField != 0

/-- either zero -/
def isZero (x : Binary64) : Bool := x.exponentField == 0 && x.fractionField == 0

/-- `m` in the magnitude `m · 2^e` -/
def significand (x : Binary64) : Nat :=
  if x.exponentField = 0 then x.fractionField else Nat.pow 2 52 + x.fractionField

/-- `e` in the magnitude `m · 2^e` -/
def exponent (x : Binary64) : Int :=
  if x.exponentField = 0 then -1074 else (x.exponentField : Int) - 1075

/-- numerator of the magnitude of a finite number -/
def numerator (x : Binary64) : Nat := x.significand * Nat.pow 2 x.exponent.toNat

/-- denominator of the magnitude of a finite number -/
def denominator (x : Binary64) : Nat := Nat.pow 2 (-x.exponent).toNat

/-- rounded product of two finite numbers -/
def mul (x y : Binary64) : Binary64 :=
  ofRatio (x.isNegative != y.isNegative) (x.numerator * y.numerator) (x.denominator * y.denominator)

/-- rounded quotient of two finite numbers, the second not zero -/
def div (x y : Binary64) : Binary64 :=
  ofRatio (x.isNegative != y.isNegative) (x.numerator * y.denominator) (x.denominator * y.numerator)

/-- the number nearest to a power of ten -/
def tenTo (n : Nat) : Binary64 := ofNat (Nat.pow 10 n)

/-- a number over a power of ten, in steps of at most 308 decimal places -/
def overTenTo (x : Binary64) (n : Nat) : Binary64 :=
  if _last : n ≤ 308 then x.div (tenTo n)
  else if x.isZero then x
  else overTenTo (x.div (tenTo 308)) (n - 308)
termination_by n

/-- a number times a power of ten; infinity beyond 308 decimal places, unless the number is zero -/
def timesTenTo (x : Binary64) (n : Nat) : Binary64 :=
  if n ≤ 308 then x.mul (tenTo n)
  else if x.isZero then x
  else ⟨UInt64.ofNat (signBit x.isNegative + infinityWord)⟩

/-- `digits · 10^exponent`, where first the digits and then the result are rounded -/
def scaled (digits : Nat) : Int → Binary64
  | .ofNat n => (ofNat digits).timesTenTo n
  | .negSucc n => (ofNat digits).overTenTo (n + 1)

/-- the number with the opposite sign -/
def neg (x : Binary64) : Binary64 :=
  ⟨UInt64.ofNat (if x.isNegative then x.bits.toNat - wordCount 63 else x.bits.toNat + wordCount 63)⟩

/-- decimal digits of a number -/
def decimalDigits (n : Nat) : List Char := Nat.toDigits 10 n

def padLeft (width : Nat) (c : Char) (cs : List Char) : List Char :=
  List.replicate (width - cs.length) c ++ cs

/-- magnitude and sign with a fixed number of decimal places, a tie going to the even last digit -/
def fixed (places : Nat) (x : Binary64) : String :=
  let scaled := roundQuotient (x.numerator * Nat.pow 10 places) x.denominator
  let digits := padLeft (places + 1) '0' (decimalDigits scaled)
  let cut := digits.length - places
  let body := if places = 0 then digits else digits.take cut ++ '.' :: digits.drop cut
  String.ofList (if x.isNegative then '-' :: body else body)

/-! ## Fewest digits that read back -/

/-- a decimal number `digits · 10^exponent` -/
structure Decimal where
  digits : Nat
  exponent : Int
  deriving DecidableEq, Repr

/-- whether a decimal number is rounded to this word -/
def readsBack (x : Binary64) (d : Decimal) : Bool :=
  ofDecimal x.isNegative d.digits d.exponent = x

/-- distance of a decimal from the magnitude, times the common denominator `denominator · 10^places` -/
def distance (x : Binary64) (d : Decimal) (places : Nat) : Nat :=
  let a := x.numerator * Nat.pow 10 places
  let b := d.digits * Nat.pow 10 (d.exponent + places).toNat * x.denominator
  (a - b) + (b - a)

/-- power of ten of the leading digit of a positive magnitude -/
def leadingPower (x : Binary64) : Int :=
  if x.denominator ≤ x.numerator then
    ((decimalDigits (x.numerator / x.denominator)).length : Int) - 1
  else
    -((decimalDigits (x.denominator / x.numerator)).length : Int)

/-- the neighbours of the magnitude on the grid of multiples of `10^e`, nearest first -/
def neighbours (x : Binary64) (e : Int) : List Decimal :=
  let low := x.numerator * Nat.pow 10 (-e).toNat / (x.denominator * Nat.pow 10 e.toNat)
  let places := (-e).toNat
  let down : Decimal := ⟨low, e⟩
  let up : Decimal := ⟨low + 1, e⟩
  if x.distance up places < x.distance down places then [up, down]
  else if x.distance down places < x.distance up places then [down, up]
  else if low % 2 = 0 then [down, up] else [up, down]

/-- drop zeros at the end of the digits -/
def Decimal.strip : Nat → Decimal → Decimal
  | 0, d => d
  | fuel + 1, d => if d.digits ≠ 0 ∧ d.digits % 10 = 0 then strip fuel ⟨d.digits / 10, d.exponent + 1⟩ else d

/-- the decimal with the fewest digits that reads back as a positive finite number -/
def shortest (x : Binary64) : Decimal :=
  let top := x.leadingPower
  let grids := (List.range 19).map (fun (i : Nat) => top + 1 - (i : Int))
  match grids.findSome? (fun e => (x.neighbours e).find? (fun d => d.digits ≠ 0 && x.readsBack d)) with
  | some d => d.strip 400
  | none => ⟨x.numerator, 0⟩

/-- all digits positional: a point only when there is a fraction -/
def positional (d : Decimal) : List Char :=
  let ds := decimalDigits d.digits
  if 0 ≤ d.exponent then ds ++ List.replicate d.exponent.toNat '0'
  else
    let places := (-d.exponent).toNat
    let full := padLeft (places + 1) '0' ds
    full.take (full.length - places) ++ '.' :: full.drop (full.length - places)

/-- fewest digits with at least one decimal place; an exponent from `1e16` up and below `1e-5` -/
def toText (x : Binary64) : String :=
  let body :=
    if x.significand = 0 then ['0', '.', '0']
    else
      let d := x.shortest
      let ds := decimalDigits d.digits
      let point : Int := ds.length + d.exponent
      if 0 ≤ d.exponent && point ≤ 16 then positional d ++ ['.', '0']
      else if -5 < point && point ≤ 16 then positional d
      else
        let mantissa := match ds with
          | [] => []
          | [c] => [c]
          | c :: rest => c :: '.' :: rest
        let power := point - 1
        mantissa ++ 'e' :: ((if power < 0 then ['-'] else []) ++ decimalDigits power.natAbs)
  String.ofList (if x.isNegative then '-' :: body else body)

end Binary64

end RepoTutor
