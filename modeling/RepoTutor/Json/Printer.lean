/-
The text of a JSON value: compact, or indented by two spaces.

Members appear in the order in which the value holds them. A quotation mark, a backslash and the control characters
below U+0020 are escaped, all other characters stand as they are.
-/
import RepoTutor.Json.Value
import RepoTutor.Hash.Sha256

namespace RepoTutor.Json

/-- a character inside a JSON string -/
def escape (c : Char) : List Char :=
  if c = '"' then ['\\', '"']
  else if c = '\\' then ['\\', '\\']
  else if c.toNat = 8 then ['\\', 'b']
  else if c.toNat = 9 then ['\\', 't']
  else if c.toNat = 10 then ['\\', 'n']
  else if c.toNat = 12 then ['\\', 'f']
  else if c.toNat = 13 then ['\\', 'r']
  else if c.toNat < 32 then '\\' :: 'u' :: Hash.hexOf 4 c.toNat
  else [c]

/-- a quoted JSON string -/
def quote (cs : List Char) : List Char := '"' :: (cs.flatMap escape ++ ['"'])

/-- decimal text of an integer -/
def intChars (n : Int) : List Char :=
  (if n < 0 then ['-'] else []) ++ Nat.toDigits 10 n.natAbs

namespace Number

def chars : Number → List Char
  | whole n => intChars n
  | real x => x.toText.toList

end Number

namespace Value

mutual

/-- text without spaces -/
def chars : Value → List Char
  | null => "null".toList
  | bool true => "true".toList
  | bool false => "false".toList
  | num n => n.chars
  | str s => quote s.toList
  | arr items => '[' :: (itemChars items ++ [']'])
  | obj members => '{' :: (memberChars members ++ ['}'])

def itemChars : List Value → List Char
  | [] => []
  | [v] => chars v
  | v :: rest => chars v ++ ',' :: itemChars rest

def memberChars : List (String × Value) → List Char
  | [] => []
  | [(k, v)] => quote k.toList ++ ':' :: chars v
  | (k, v) :: rest => quote k.toList ++ ':' :: (chars v ++ ',' :: memberChars rest)

end

/-- compact text -/
def compact (v : Value) : String := String.ofList v.chars

/-- a line end and the indentation of a depth -/
def lineBreak (depth : Nat) : List Char := '\n' :: List.replicate (2 * depth) ' '

mutual

/-- text with one item or member to a line; an empty list or object stays on its line -/
def indented (depth : Nat) : Value → List Char
  | null => "null".toList
  | bool true => "true".toList
  | bool false => "false".toList
  | num n => n.chars
  | str s => quote s.toList
  | arr [] => ['[', ']']
  | obj [] => ['{', '}']
  | arr (v :: rest) =>
    '[' :: (lineBreak (depth + 1) ++ indented (depth + 1) v ++ indentedItems (depth + 1) rest
      ++ lineBreak depth ++ [']'])
  | obj ((k, v) :: rest) =>
    '{' :: (lineBreak (depth + 1) ++ quote k.toList ++ ':' :: ' ' :: indented (depth + 1) v
      ++ indentedMembers (depth + 1) rest ++ lineBreak depth ++ ['}'])

/-- further items, each after a comma -/
def indentedItems (depth : Nat) : List Value → List Char
  | [] => []
  | v :: rest => ',' :: (lineBreak depth ++ indented depth v ++ indentedItems depth rest)

/-- further members, each after a comma -/
def indentedMembers (depth : Nat) : List (String × Value) → List Char
  | [] => []
  | (k, v) :: rest =>
    ',' :: (lineBreak depth ++ quote k.toList ++ ':' :: ' ' :: indented depth v ++ indentedMembers depth rest)

end

/-- text indented by two spaces, without a line end at its end -/
def pretty (v : Value) : String := String.ofList (v.indented 0)

end Value

/-- compact text of the canonical form -/
def canonicalText (v : Value) : String := v.canonical.compact

end RepoTutor.Json
