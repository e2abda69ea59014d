/-
Texts between quotation marks, as messages show them.

A character without a glyph of its own (controls, formats, separators other than the space, private and unassigned code
points) is written by its number, and so is one that combines with the character before it.
-/
import RepoTutor.Text.Basic
import RepoTutor.Text.Property

namespace RepoTutor.Text

/-- a character inside a quoted text of a message -/
def quotedChar (c : Char) : List Char :=
  if c = '"' then ['\\', '"']
  else if c = '\\' then ['\\', '\\']
  else if c = '\n' then ['\\', 'n']
  else if c = '\r' then ['\\', 'r']
  else if c = '\t' then ['\\', 't']
  else if c.toNat = 0 then ['\\', '0']
  else if isUnseen c then ['\\', 'u', '\x7b'] ++ Nat.toDigits 16 c.toNat ++ ['\x7d']
  else [c]

/-- a text between quotation marks as it appears in messages -/
def quoted (s : String) : String := String.ofList ('"' :: (s.toList.flatMap quotedChar ++ ['"']))

end RepoTutor.Text
