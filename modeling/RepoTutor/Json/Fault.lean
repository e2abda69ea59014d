/-
What is wrong with a text that is not JSON, and where.

A reader stops at a place of the text, which it knows by what is left from there on. Places are told as a line and a
column, both counted from one, the column in bytes.
-/
import RepoTutor.Text.Basic

namespace RepoTutor.Json

inductive Fault where
  | unfinishedList
  | unfinishedObject
  | unfinishedString
  | unfinishedValue
  | colonExpected
  | listEndExpected
  | objectEndExpected
  | wordExpected
  | valueExpected
  | keyExpected
  | invalidEscape
  | invalidNumber
  | numberOutOfRange
  | controlCharacter
  | loneSurrogate
  | unfinishedPair
  | trailingComma
  | trailingText
  | tooDeep
  deriving DecidableEq, Repr

def Fault.message : Fault → String
  | unfinishedList => "EOF while parsing a list"
  | unfinishedObject => "EOF while parsing an object"
  | unfinishedString => "EOF while parsing a string"
  | unfinishedValue => "EOF while parsing a value"
  | colonExpected => "expected \x60:\x60"
  | listEndExpected => "expected \x60,\x60 or \x60]\x60"
  | objectEndExpected => "expected \x60,\x60 or \x60\x7d\x60"
  | wordExpected => "expected ident"
  | valueExpected => "expected value"
  | keyExpected => "key must be a string"
  | invalidEscape => "invalid escape"
  | invalidNumber => "invalid number"
  | numberOutOfRange => "number out of range"
  | controlCharacter => "control character (\\u0000-\\u001F) found while parsing a string"
  | loneSurrogate => "lone leading surrogate in hex escape"
  | unfinishedPair => "unexpected end of hex escape"
  | trailingComma => "trailing comma"
  | trailingText => "trailing characters"
  | tooDeep => "recursion limit exceeded"

/-- where and why a reader stops: what is left of the text, and how many bytes of it were looked at -/
structure Stop where
  fault : Fault
  rest : List Char
  ahead : Nat
  deriving DecidableEq, Repr

/-- what a reader comes to: something and the rest of the text, or why it stops -/
abbrev Read (α : Type) := Except Stop (α × List Char)

/-- stop in front of the rest -/
def stopAt {α : Type} (fault : Fault) (rest : List Char) : Read α := .error ⟨fault, rest, 0⟩

/-- stop one byte into the rest -/
def stopPast {α : Type} (fault : Fault) (rest : List Char) : Read α := .error ⟨fault, rest, 1⟩

/-- bytes of the UTF-8 encoding of some characters -/
def byteLength (cs : List Char) : Nat := (String.ofList cs).utf8ByteSize

/-- a fault at its place in the text -/
structure TextError where
  fault : Fault
  line : Nat
  column : Nat
  deriving DecidableEq, Repr

namespace TextError

/-- the place of a stop in the text -/
def ofStop (text : List Char) (s : Stop) : TextError :=
  let bytes := (String.ofList text).toUTF8.toList
  let before := bytes.take (byteLength text - byteLength s.rest + s.ahead)
  ⟨s.fault, before.count 10 + 1, (before.reverse.takeWhile (· != 10)).length⟩

def message (e : TextError) : String :=
  e.fault.message ++ " at line " ++ Text.natText e.line ++ " column " ++ Text.natText e.column

end TextError

end RepoTutor.Json
