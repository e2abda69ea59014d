/-
Reading JSON text.

`Value.parse` accepts one value with blanks around it and nothing else. Values nest at most 127 deep. A whole number
that fits neither a signed nor an unsigned 64-bit word is read as a double, as is minus zero; a double that overflows
is refused. A double is rounded twice: its leading digits as a 64-bit word, and that word scaled by a power of ten.
Escaped surrogates count only in pairs. The first fault from the left is the one that is told.
-/
import RepoTutor.Json.Fault
import RepoTutor.Json.Value
import RepoTutor.Numeric.Word

namespace RepoTutor.Json

/-- the four blanks of JSON -/
def isSpace (c : Char) : Bool := c == ' ' || c == '\n' || c == '\t' || c == '\r'

def skipSpace (cs : List Char) : List Char := cs.dropWhile isSpace

/-! ## Strings -/

/-- value of a hexadecimal digit -/
def hexValue? (c : Char) : Option Nat :=
  if Text.isDigit c then some (c.toNat - '0'.toNat)
  else if 'a' ≤ c && c ≤ 'f' then some (c.toNat - 'a'.toNat + 10)
  else if 'A' ≤ c && c ≤ 'F' then some (c.toNat - 'A'.toNat + 10)
  else none

/-- the number of four hexadecimal digits -/
def hexNumber? (a b c d : Char) : Option Nat := do
  return (((← hexValue? a) * 16 + (← hexValue? b)) * 16 + (← hexValue? c)) * 16 + (← hexValue? d)

/-- four hexadecimal digits; less than four bytes are no escape yet -/
def hexUnit (cs : List Char) : Read Nat :=
  let broken : Read Nat :=
    if byteLength cs < 4 then stopAt .unfinishedString [] else .error ⟨.invalidEscape, cs, 4⟩
  match cs with
  | a :: b :: c :: d :: rest =>
    match hexNumber? a b c d with
    | some n => .ok (n, rest)
    | none => broken
  | _ => broken

/-- the second half of a pair of surrogates -/
def lowSurrogate (high : Nat) : List Char → Except Stop (Char × List Char)
  | '\\' :: 'u' :: rest => do
    let (low, rest) ← hexUnit rest
    if 0xDC00 ≤ low ∧ low < 0xE000 then
      return (Char.ofNat (0x10000 + (high - 0xD800) * 0x400 + (low - 0xDC00)), rest)
    else stopAt .loneSurrogate rest
  | [] => stopAt .unfinishedString []
  | ['\\'] => stopAt .unfinishedString []
  | '\\' :: rest => stopPast .unfinishedPair rest
  | rest => stopPast .unfinishedPair rest

/-- the character that an escape names by its number -/
def escapedUnit (cs : List Char) : Except Stop (Char × List Char) := do
  let (n, rest) ← hexUnit cs
  if 0xDC00 ≤ n ∧ n < 0xE000 then stopAt .loneSurrogate rest
  else if 0xD800 ≤ n ∧ n < 0xDC00 then lowSurrogate n rest
  else return (Char.ofNat n, rest)

/-- the character of an escape after its backslash -/
def unescape : List Char → Read Char
  | '"' :: rest => .ok ('"', rest)
  | '\\' :: rest => .ok ('\\', rest)
  | '/' :: rest => .ok ('/', rest)
  | 'b' :: rest => .ok (Char.ofNat 8, rest)
  | 'f' :: rest => .ok (Char.ofNat 12, rest)
  | 'n' :: rest => .ok ('\n', rest)
  | 'r' :: rest => .ok ('\r', rest)
  | 't' :: rest => .ok ('\t', rest)
  | 'u' :: rest => escapedUnit rest
  | [] => stopAt .unfinishedString []
  | rest => stopPast .invalidEscape rest

/-- put a character in front of what was read -/
def consRead (c : Char) (r : Read (List Char)) : Read (List Char) := r.map (fun p => (c :: p.1, p.2))

/-- characters of a string up to its closing quotation mark -/
def stringBody : List Char → Read (List Char)
  | [] => stopAt .unfinishedString []
  | '"' :: rest => .ok ([], rest)
  | '\\' :: rest =>
    match unescape rest with
    | .ok (c, rest') =>
      if _shorter : rest'.length < rest.length + 1 then consRead c (stringBody rest')
      else stopAt .invalidEscape rest
    | .error s => .error s
  | c :: rest => if c.toNat < 32 then stopAt .controlCharacter rest else consRead c (stringBody rest)
termination_by cs => cs.length

/-! ## Numbers -/

/-- a run of digits and the rest -/
def digits (cs : List Char) : List Char × List Char := (cs.takeWhile Text.isDigit, cs.dropWhile Text.isDigit)

/-- the number that digits append to, as far as it stays below a bound, and the digits that are left -/
def digitsBelow (bound n : Nat) : List Char → Nat × List Char
  | [] => (n, [])
  | c :: rest =>
    let more := n * 10 + Text.digitsValue [c]
    if more < bound then digitsBelow bound more rest else (n, c :: rest)

/-- the digits of a fraction, if a point follows; the point needs a digit after it -/
def fraction : List Char → Read (List Char)
  | '.' :: rest =>
    let (ds, after) := digits rest
    if !ds.isEmpty then .ok (ds, after)
    else if rest.isEmpty then stopAt .unfinishedValue []
    else stopPast .invalidNumber rest
  | cs => .ok ([], cs)

/-- an exponent that is written: its sign and its digits -/
structure Exponent where
  negative : Bool
  digits : List Char

/-- the digits of an exponent after its sign -/
def exponentDigits (negative : Bool) (cs : List Char) : Read (Option Exponent) :=
  let (ds, rest) := digits cs
  if !ds.isEmpty then .ok (some ⟨negative, ds⟩, rest)
  else if cs.isEmpty then stopAt .unfinishedValue []
  else stopPast .invalidNumber cs

/-- an exponent, if its letter follows -/
def exponent : List Char → Read (Option Exponent)
  | c :: rest =>
    if c = 'e' ∨ c = 'E' then
      match rest with
      | '+' :: rest => exponentDigits false rest
      | '-' :: rest => exponentDigits true rest
      | _ => exponentDigits false rest
    else .ok (none, c :: rest)
  | [] => .ok (none, [])

/-- the value of an exponent; zero when none is written -/
def Exponent.value : Option Exponent → Int
  | none => 0
  | some e => if e.negative then -(Text.digitsValue e.digits : Int) else Text.digitsValue e.digits

/-- a double from its digits, with what is left of the text after it; digits past 64 bits only count as places -/
def realOf (negative : Bool) (ds fraction : List Char) (e : Option Exponent) (rest : List Char) : Read Number :=
  let (n, left) := digitsBelow (wordCount 64) 0 ds
  let (m, dropped) := digitsBelow (wordCount 64) n fraction
  let places : Int := (fraction.length : Int) - dropped.length
  let unread := match e with
    | some ⟨false, eds⟩ => if m = 0 then [] else (digitsBelow (wordCount 31) 0 eds).2.drop 1
    | _ => []
  let x := Binary64.scaled m (Exponent.value e + left.length - places)
  if x.isFinite then .ok (.real (if negative then x.neg else x), rest)
  else stopAt .numberOutOfRange (unread ++ rest)

/-- a whole number when it is written as one and fits a 64-bit word -/
def wholeOf? (negative : Bool) (ds : List Char) : Option Number :=
  let (n, left) := digitsBelow (wordCount 64) 0 ds
  if left.isEmpty ∧ (negative → n ≠ 0 ∧ n ≤ wordCount 63) then
    some (.whole (if negative then -(n : Int) else n))
  else none

/-- a number after its sign -/
def unsigned (negative : Bool) (cs : List Char) : Except Stop (Number × List Char) :=
  let (ds, rest) := digits cs
  match ds with
  | [] => if cs.isEmpty then stopAt .unfinishedValue [] else stopPast .invalidNumber cs
  | '0' :: c :: more => stopPast .invalidNumber (c :: more ++ rest)
  | ds => do
    let (fs, rest) ← fraction rest
    let (e, rest) ← exponent rest
    match wholeOf? negative ds with
    | some n => if fs.isEmpty ∧ e.isNone then return (n, rest) else realOf negative ds fs e rest
    | none => realOf negative ds fs e rest

def number : List Char → Read Number
  | '-' :: rest => unsigned true rest
  | cs => unsigned false cs

/-! ## Values -/

/-- the value of a word, when the text goes on with it -/
def word (v : Value) : List Char → List Char → Read Value
  | [], cs => .ok (v, cs)
  | _ :: _, [] => stopAt .unfinishedValue []
  | e :: es, c :: cs => if e = c then word v es cs else stopPast .wordExpected (c :: cs)

/-- a value that is neither an array nor an object -/
def scalar : List Char → Read Value
  | '"' :: rest => (stringBody rest).map (fun r => (.str (String.ofList r.1), r.2))
  | 'n' :: rest => word .null "ull".toList rest
  | 't' :: rest => word (.bool true) "rue".toList rest
  | 'f' :: rest => word (.bool false) "alse".toList rest
  | [] => stopAt .unfinishedValue []
  | c :: rest =>
    if c = '-' ∨ Text.isDigit c then (number (c :: rest)).map (fun r => (.num r.1, r.2))
    else stopPast .valueExpected (c :: rest)

/-- what reads one value from the front of a text -/
abbrev Reader := List Char → Read Value

/-- items after the first, up to the closing bracket -/
def moreItems (item : Reader) (cs : List Char) : Read (List Value) :=
  match skipSpace cs with
  | [] => stopAt .unfinishedList []
  | ']' :: rest => .ok ([], rest)
  | ',' :: rest =>
    match skipSpace rest with
    | ']' :: after => stopPast .trailingComma (']' :: after)
    | after =>
      match item after with
      | .ok (v, rest) =>
        if _shorter : rest.length < cs.length then (moreItems item rest).map (fun r => (v :: r.1, r.2))
        else stopAt .valueExpected rest
      | .error s => .error s
  | rest => stopPast .listEndExpected rest
termination_by cs.length

/-- the colon after a key -/
def colon (cs : List Char) : Except Stop (List Char) :=
  match skipSpace cs with
  | [] => .error ⟨.unfinishedObject, [], 0⟩
  | ':' :: rest => .ok (skipSpace rest)
  | rest => .error ⟨.colonExpected, rest, 1⟩

/-- a key, a colon and a value -/
def member (item : Reader) : List Char → Except Stop ((String × Value) × List Char)
  | '"' :: rest => do
    let (key, rest) ← stringBody rest
    let (v, rest) ← item (← colon rest)
    return ((String.ofList key, v), rest)
  | rest => stopPast .keyExpected rest

/-- members after the first, up to the closing brace -/
def moreMembers (item : Reader) (cs : List Char) : Read (List (String × Value)) :=
  match skipSpace cs with
  | [] => stopAt .unfinishedObject []
  | '\x7d' :: rest => .ok ([], rest)
  | ',' :: rest =>
    match skipSpace rest with
    | [] => stopAt .unfinishedValue []
    | '\x7d' :: after => stopPast .trailingComma ('\x7d' :: after)
    | after =>
      match member item after with
      | .ok (m, rest) =>
        if _shorter : rest.length < cs.length then (moreMembers item rest).map (fun r => (m :: r.1, r.2))
        else stopAt .keyExpected rest
      | .error s => .error s
  | rest => stopPast .objectEndExpected rest
termination_by cs.length

/-- the items of an array after its opening bracket -/
def arrayBody (item : Reader) (cs : List Char) : Except Stop (Value × List Char) :=
  match skipSpace cs with
  | [] => stopAt .unfinishedList []
  | ']' :: rest => .ok (.arr [], rest)
  | cs => do
    let (v, rest) ← item cs
    let (vs, rest) ← moreItems item rest
    return (.arr (v :: vs), rest)

/-- the members of an object after its opening brace -/
def objectBody (item : Reader) (cs : List Char) : Except Stop (Value × List Char) :=
  match skipSpace cs with
  | [] => stopAt .unfinishedObject []
  | '\x7d' :: rest => .ok (.obj [], rest)
  | cs => do
    let (m, rest) ← member item cs
    let (ms, rest) ← moreMembers item rest
    return (.obj (m :: ms), rest)

/-- one value that nests at most `depth` deep -/
def value : Nat → Reader
  | 0, '[' :: rest => stopPast .tooDeep ('[' :: rest)
  | 0, '\x7b' :: rest => stopPast .tooDeep ('\x7b' :: rest)
  | depth + 1, '[' :: rest => arrayBody (value depth) rest
  | depth + 1, '\x7b' :: rest => objectBody (value depth) rest
  | _, cs => scalar cs

/-- greatest depth of nested arrays and objects -/
def maxDepth : Nat := 127

/-- one value that is the whole text -/
def wholeText (cs : List Char) : Except Stop Value := do
  let (v, rest) ← value maxDepth (skipSpace cs)
  match skipSpace rest with
  | [] => return v
  | rest => .error ⟨.trailingText, rest, 1⟩

namespace Value

/-- the value of a whole text, or what is wrong with the text -/
def parse (text : String) : Except TextError Value := (wholeText text.toList).mapError (TextError.ofStop text.toList)

/-- the value of a whole text -/
def parse? (text : String) : Option Value := (wholeText text.toList).toOption

end Value

end RepoTutor.Json
