/-
The words of a terminal line.

Blanks separate words. Single quotes keep everything, double quotes keep everything but a backslash before a quotation
mark or a backslash, and outside quotes a backslash keeps the next character. An unquoted `>` or `>>` is a word of its
own. `joinWords` writes words so that they are read back unchanged.
-/
import RepoTutor.Command.Error
import RepoTutor.Text.Basic

namespace RepoTutor.Command

/-- how the current character is quoted -/
inductive Quoting where
  | bare
  | single
  | double
  deriving DecidableEq, Repr

/-- the word under construction, latest character first; `none` between words -/
abbrev Pending := Option (List Char)

/-- begin a word unless one is begun -/
def Pending.opened (p : Pending) : Pending := some (p.getD [])

/-- the word with one more character -/
def Pending.push (c : Char) (p : Pending) : Pending := some (c :: p.getD [])

/-- finished words with the pending word in front -/
def Pending.flush (p : Pending) (finished : List (List Char)) : List (List Char) :=
  match p with
  | none => finished
  | some cs => cs.reverse :: finished

/-- words of the characters ahead; `none` when a quotation does not end -/
def scanWords : Quoting → Pending → List Char → Option (List (List Char))
  | .bare, p, [] => some (p.flush [])
  | .single, _, [] => none
  | .double, _, [] => none
  | .single, p, c :: rest =>
    if c = '\'' then scanWords .bare p rest else scanWords .single (p.push c) rest
  | .double, p, c :: rest =>
    if c = '"' then scanWords .bare p rest
    else if c = '\\' then
      match rest with
      | [] => none
      | n :: rest' =>
        if n = '"' ∨ n = '\\' then scanWords .double (p.push n) rest'
        else scanWords .double (p.push '\\') (n :: rest')
    else scanWords .double (p.push c) rest
  | .bare, p, c :: rest =>
    if c = '\'' then scanWords .single p.opened rest
    else if c = '"' then scanWords .double p.opened rest
    else if c = '\\' then
      match rest with
      | [] => some (p.flush [])
      | n :: rest' => scanWords .bare (p.push n) rest'
    else if c = '>' then
      match rest with
      | [] => some (p.flush [['>']])
      | n :: rest' =>
        if n = '>' then (scanWords .bare none rest').map (fun ws => p.flush (['>', '>'] :: ws))
        else (scanWords .bare none (n :: rest')).map (fun ws => p.flush (['>'] :: ws))
    else if Text.isBlank c then (scanWords .bare none rest).map p.flush
    else scanWords .bare (p.push c) rest

/-- the words of a line -/
def tokenize (line : String) : Except ParseError (List String) :=
  match scanWords .bare none line.toList with
  | some ws => .ok (ws.map String.ofList)
  | none => .error (.unterminatedQuote (Text.trim line))

/-! ## Writing words -/

/-- characters that mean something to the reader of words -/
def isSpecial (c : Char) : Bool := Text.isBlank c || c == '"' || c == '\'' || c == '\\' || c == '>'

/-- a character inside double quotes -/
def escapeQuoted (c : Char) : List Char := if c = '"' ∨ c = '\\' then ['\\', c] else [c]

/-- a word as written: plain where possible, in double quotes otherwise -/
def quoteWord (cs : List Char) : List Char :=
  if (cs ≠ [] ∧ !cs.any isSpecial) ∨ cs = ['>'] ∨ cs = ['>', '>'] then cs
  else '"' :: (cs.flatMap escapeQuoted ++ ['"'])

/-- one line that holds these words -/
def joinWords (words : List String) : String :=
  Text.joinWith " " (words.map (fun w => String.ofList (quoteWord w.toList)))

end RepoTutor.Command
