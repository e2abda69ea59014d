/-
Text as lists of characters: blanks, trimming, cutting and joining.

A blank is a character with the Unicode property White_Space (25 characters). The functions on `List Char` carry the
definitions; those on `String` only wrap them.
-/

namespace RepoTutor.Text

/-- characters with the Unicode property White_Space -/
def isBlank (c : Char) : Bool :=
  let n := c.toNat
  (0x09 ≤ n && n ≤ 0x0D) || n == 0x20 || n == 0x85 || n == 0xA0 || n == 0x1680 || (0x2000 ≤ n && n ≤ 0x200A)
    || n == 0x2028 || n == 0x2029 || n == 0x202F || n == 0x205F || n == 0x3000

/-- drop from the end while a test holds -/
def dropEndWhile (p : Char → Bool) (cs : List Char) : List Char :=
  (cs.reverse.dropWhile p).reverse

/-- drop blanks at both ends -/
def trimChars (cs : List Char) : List Char :=
  dropEndWhile isBlank (cs.dropWhile isBlank)

def trim (s : String) : String := String.ofList (trimChars s.toList)

/-- whether nothing but blanks occurs -/
def isBlankText (s : String) : Bool := s.toList.all isBlank

/-- cut at every character that passes the test; the cutting characters are dropped -/
def splitChars (p : Char → Bool) : List Char → List (List Char)
  | [] => [[]]
  | c :: rest =>
    if p c then [] :: splitChars p rest
    else
      match splitChars p rest with
      | [] => [[c]]
      | seg :: segs => (c :: seg) :: segs

/-- pieces between the occurrences of a character -/
def splitOn (sep : Char) (s : String) : List String :=
  (splitChars (· == sep) s.toList).map String.ofList

/-- one carriage return at the end is part of the line's end -/
def dropReturn (cs : List Char) : List Char :=
  if cs.getLast? = some '\r' then cs.dropLast else cs

/-- lines of a text, each without its line feed and a carriage return before it -/
def lines (s : String) : List String :=
  match splitChars (· == '\n') s.toList with
  | [] => []
  | segs =>
    let whole := if segs.getLast? = some [] then segs.dropLast.map dropReturn
      else segs.dropLast.map dropReturn ++ (segs.getLast?.toList)
    whole.map String.ofList

/-- texts joined by a separator -/
def joinWith (sep : String) : List String → String
  | [] => ""
  | [s] => s
  | s :: rest => s ++ sep ++ joinWith sep rest

/-- whether `pre` begins the list -/
def startsWith (pre cs : List Char) : Bool := pre.isPrefixOf cs

/-- the rest after `pre`, when it begins the list -/
def dropPrefix? {α : Type} [DecidableEq α] : List α → List α → Option (List α)
  | [], cs => some cs
  | _ :: _, [] => none
  | p :: ps, c :: cs => if p = c then dropPrefix? ps cs else none

/-- whether `pat` occurs as a run of consecutive characters -/
def hasInfix (pat : List Char) : List Char → Bool
  | [] => pat.isEmpty
  | c :: cs => pat.isPrefixOf (c :: cs) || hasInfix pat cs

/-- whether `suf` ends the list -/
def endsWith (suf cs : List Char) : Bool := suf.isSuffixOf cs

def isDigit (c : Char) : Bool := '0' ≤ c && c ≤ '9'

/-- letters `A` to `Z` and `a` to `z` -/
def isLatinLetter (c : Char) : Bool := ('a' ≤ c && c ≤ 'z') || ('A' ≤ c && c ≤ 'Z')

def isLatinAlphanumeric (c : Char) : Bool := isLatinLetter c || isDigit c

def isHexDigit (c : Char) : Bool := isDigit c || ('a' ≤ c && c ≤ 'f') || ('A' ≤ c && c ≤ 'F')

/-- lower case for `A` to `Z`, all else unchanged -/
def latinLower (c : Char) : Char :=
  if 'A' ≤ c && c ≤ 'Z' then Char.ofNat (c.toNat + 32) else c

/-- the number that a list of decimal digits denotes -/
def digitsValue (cs : List Char) : Nat :=
  cs.foldl (fun n c => n * 10 + (c.toNat - '0'.toNat)) 0

/-- decimal text of a number -/
def natText (n : Nat) : String := String.ofList (Nat.toDigits 10 n)

/-- an unsigned number below `bound`: an optional plus sign and at least one digit -/
def natBelow? (bound : Nat) (cs : List Char) : Option Nat :=
  let ds := match cs with
    | '+' :: rest => rest
    | other => other
  if ds.isEmpty || !ds.all isDigit then none
  else
    let n := digitsValue ds
    if n < bound then some n else none

end RepoTutor.Text
