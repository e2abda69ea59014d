/-
Places in a YAML text, and the characters that matter there.
-/
import RepoTutor.Text.Basic

namespace RepoTutor.Yaml

/-- what is left of a text, with the line and column reached -/
structure Cursor where
  rest : List Char
  line : Nat := 0
  column : Nat := 0
  index : Nat := 0

namespace Cursor

/-- one character further on the same line -/
def advance (c : Cursor) (rest : List Char) : Cursor := ⟨rest, c.line, c.column + 1, c.index + 1⟩

/-- some characters further on the same line -/
def skip (c : Cursor) (n : Nat) : Cursor := ⟨c.rest.drop n, c.line, c.column + n, c.index + n⟩

/-- at the start of the next line -/
def newline (c : Cursor) (rest : List Char) : Cursor :=
  ⟨rest, c.line + 1, 0, c.index + (c.rest.length - rest.length)⟩

def head? (c : Cursor) : Option Char := c.rest.head?

end Cursor

/-- characters that a text may hold at all -/
def isAllowed (c : Char) : Bool :=
  let n := c.toNat
  n == 0x09 || n == 0x0A || n == 0x0D || (0x20 ≤ n && n ≤ 0x7E) || n == 0x85 || (0xA0 ≤ n && n ≤ 0xD7FF)
    || (0xE000 ≤ n && n ≤ 0xFFFD) || 0x10000 ≤ n

def isTabOrSpace (c : Char) : Bool := c == ' ' || c == '\t'

/-- characters that end a line -/
def isBreak (c : Char) : Bool :=
  c == '\n' || c == '\r' || c.toNat == 0x85 || c.toNat == 0x2028 || c.toNat == 0x2029

def isGap (c : Char) : Bool := isTabOrSpace c || isBreak c

/-- whether a text has ended or goes on with a blank or a line end -/
def gapAhead : List Char → Bool
  | [] => true
  | c :: _ => isGap c

/-- a line end at the front: what it counts as, and the rest -/
def lineBreak? : List Char → Option (Char × List Char)
  | '\r' :: '\n' :: rest => some ('\n', rest)
  | c :: rest =>
    if c = '\n' ∨ c = '\r' ∨ c.toNat = 0x85 then some ('\n', rest)
    else if isBreak c then some (c, rest)
    else none
  | [] => none

/-- characters of names after an anchor sign -/
def isNameChar (c : Char) : Bool := Text.isLatinAlphanumeric c || c == '_' || c == '-'

/-- whether a marker of three characters and a gap stand at the start of a line -/
def markerAhead (mark : Char) (c : Cursor) : Bool :=
  c.column == 0 &&
    match c.rest with
    | a :: b :: d :: rest => a == mark && b == mark && d == mark && gapAhead rest
    | _ => false

/-- whether a document starts or ends here -/
def documentMark (c : Cursor) : Bool := markerAhead '-' c || markerAhead '.' c

/-- skip while a test holds, on one line -/
def Cursor.skipWhile (c : Cursor) (p : Char → Bool) : Cursor := c.skip (c.rest.takeWhile p).length

/-- skip a line end, if one is ahead -/
def Cursor.skipBreak (c : Cursor) : Cursor :=
  match lineBreak? c.rest with
  | some (_, rest) => c.newline rest
  | none => c

end RepoTutor.Yaml
