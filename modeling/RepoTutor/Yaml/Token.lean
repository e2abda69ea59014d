/-
The tokens of a YAML text.

Indentation and simple keys become tokens of their own: a block collection starts where a line is indented further than
the one before and ends where it is indented less, and a key on one line is recognized only at the colon behind it, so
the `key` token is inserted at the place where the key began. `tokens?` is `none` for a text that has no reading.
-/
import RepoTutor.Yaml.ScalarText
import RepoTutor.Yaml.TagText

namespace RepoTutor.Yaml

inductive Token where
  | directive (d : Directive)
  | documentStart
  | documentEnd
  | blockSequenceStart
  | blockMappingStart
  | blockEnd
  | flowSequenceStart
  | flowSequenceEnd
  | flowMappingStart
  | flowMappingEnd
  | blockEntry
  | flowEntry
  | key
  | value
  | reference (name : List Char)
  | anchor (name : List Char)
  | tag (handle suffix : List Char)
  | scalar (plain : Bool) (text : List Char)

/-- a place where a simple key may have begun -/
structure SimpleKey where
  /-- nothing but a key can stand here -/
  required : Bool
  /-- how many tokens precede the key -/
  number : Nat
  line : Nat
  column : Nat
  index : Nat

/-- what is known while tokens are collected -/
structure Lexer where
  place : Cursor
  /-- tokens found so far, the last one first -/
  found : List Token := []
  /-- column of the innermost block collection -/
  indent : Int := -1
  /-- columns of the block collections around it -/
  outerIndents : List Int := []
  /-- a simple key may begin here -/
  keyAllowed : Bool := true
  /-- a simple key that may have begun inside the innermost brackets -/
  candidate : Option SimpleKey := none
  /-- the same for the surroundings of each open bracket -/
  outerCandidates : List (Option SimpleKey) := []

namespace Lexer

/-- whether brackets or braces are open -/
def inFlow (s : Lexer) : Bool := !s.outerCandidates.isEmpty

def emit (s : Lexer) (t : Token) : Lexer := { s with found := t :: s.found }

/-- add a token and go on behind its sign of `n` characters -/
def take (s : Lexer) (t : Token) (n : Nat) : Lexer := { s.emit t with place := s.place.skip n }

/-- insert a token behind the first `number` tokens -/
def insertAt (s : Lexer) (number : Nat) (t : Token) : Lexer :=
  let later := s.found.length - number
  { s with found := s.found.take later ++ t :: s.found.drop later }

/-! ## Simple keys -/

/-- a key is given up at the end of its line and after 1024 characters -/
def isStale (place : Cursor) (k : SimpleKey) : Bool := k.line < place.line || k.index + 1024 < place.index

/-- give up stale keys; `none` when one of them was required -/
def dropStale (s : Lexer) : Option Lexer :=
  let overdue (k : Option SimpleKey) : Bool := k.any (fun k => isStale s.place k && k.required)
  let fresh (k : Option SimpleKey) : Option SimpleKey := k.filter (fun k => !isStale s.place k)
  if overdue s.candidate || s.outerCandidates.any overdue then none
  else some { s with candidate := fresh s.candidate, outerCandidates := s.outerCandidates.map fresh }

/-- give up the current key; `none` when it was required -/
def dropKey (s : Lexer) : Option Lexer :=
  if s.candidate.any (·.required) then none else some { s with candidate := none }

/-- remember that a simple key may begin here -/
def markKey (s : Lexer) : Option Lexer :=
  if s.keyAllowed then
    (s.dropKey).map (fun s => { s with
      candidate := some
        ⟨!s.inFlow && s.indent == s.place.column, s.found.length, s.place.line, s.place.column, s.place.index⟩ })
  else some s

/-- close the block collections that are indented further than a column -/
def unroll (s : Lexer) (column : Int) : Lexer :=
  if s.inFlow then s
  else
    let rec close : Int → List Int → Lexer → Lexer
      | indent, [], s => { s with indent := indent, outerIndents := [] }
      | indent, outer :: rest, s =>
        if column < indent then close outer rest (s.emit .blockEnd)
        else { s with indent := indent, outerIndents := outer :: rest }
    close s.indent s.outerIndents s

/-- open a block collection at a column that is indented further than the current one -/
def roll (s : Lexer) (column : Nat) (number : Nat) (t : Token) : Lexer :=
  if s.inFlow || (column : Int) ≤ s.indent then s
  else { s.insertAt number t with indent := column, outerIndents := s.indent :: s.outerIndents }

/-! ## Signs -/

/-- `-` before an entry of a block sequence -/
def blockEntry (s : Lexer) : Option Lexer :=
  if !s.inFlow && !s.keyAllowed then none
  else do
    let s ← (s.roll s.place.column s.found.length .blockSequenceStart).dropKey
    return { s with keyAllowed := true }.take .blockEntry 1

/-- `?` before a key -/
def keySign (s : Lexer) : Option Lexer :=
  if !s.inFlow && !s.keyAllowed then none
  else do
    let s ← (s.roll s.place.column s.found.length .blockMappingStart).dropKey
    return { s with keyAllowed := !s.inFlow }.take .key 1

/-- `:` before a value -/
def valueSign (s : Lexer) : Option Lexer :=
  match s.candidate with
  | some k =>
    let s := (s.insertAt k.number .key).roll k.column k.number .blockMappingStart
    some ({ s with candidate := none, keyAllowed := false }.take .value 1)
  | none =>
    if !s.inFlow && !s.keyAllowed then none
    else
      let s := s.roll s.place.column s.found.length .blockMappingStart
      some ({ s with keyAllowed := !s.inFlow }.take .value 1)

/-- an opening bracket or brace -/
def openFlow (s : Lexer) (t : Token) : Option Lexer :=
  (s.markKey).map (fun s => { s with
    candidate := none, outerCandidates := s.candidate :: s.outerCandidates, keyAllowed := true }.take t 1)

/-- a closing bracket or brace -/
def closeFlow (s : Lexer) (t : Token) : Option Lexer :=
  (s.dropKey).map (fun s => { s with
    candidate := s.outerCandidates.head?.getD s.candidate
    outerCandidates := s.outerCandidates.drop 1
    keyAllowed := false }.take t 1)

/-- `,` between entries -/
def flowEntry (s : Lexer) : Option Lexer :=
  (s.dropKey).map (fun s => { s with keyAllowed := true }.take .flowEntry 1)

/-- `---` or `...` -/
def documentMarker (s : Lexer) (t : Token) : Option Lexer :=
  ((s.unroll (-1)).dropKey).map (fun s => { s with keyAllowed := false }.take t 3)

/-- go on at what is left of the line -/
def goOn (s : Lexer) (rest : List Char) : Lexer :=
  { s with place := s.place.skip (s.place.rest.length - rest.length) }

def directiveLine (s : Lexer) : Option Lexer := do
  let s ← (s.unroll (-1)).dropKey
  let (d, rest) ← directive? (s.place.rest.drop 1)
  let s := { s.goOn rest with keyAllowed := false }
  let c := s.place.skipWhile isTabOrSpace
  let c := if c.head? == some '#' then c.skipWhile (fun ch => !isBreak ch) else c
  if c.rest.isEmpty || c.head?.any isBreak then return { s.emit (.directive d) with place := c.skipBreak } else none

/-- an anchor or alias -/
def nameSign (s : Lexer) (token : List Char → Token) : Option Lexer := do
  let s ← s.markKey
  let (name, rest) ← anchorName? (s.place.rest.drop 1)
  return { s.goOn rest with keyAllowed := false }.emit (token name)

def tagSign (s : Lexer) : Option Lexer := do
  let s ← s.markKey
  let (handle, suffix, rest) ← tagText? s.place.rest
  if gapAhead rest || (s.inFlow && rest.head? == some ',') then
    return { s.goOn rest with keyAllowed := false }.emit (.tag handle suffix)
  else none

/-! ## Scalars -/

def blockScalar (s : Lexer) (literal : Bool) : Option Lexer := do
  let s ← s.dropKey
  let (text, place) ← scanBlock literal s.indent (s.place.skip 1)
  return { s with place := place, keyAllowed := true }.emit (.scalar false text)

def quotedScalar (s : Lexer) (quote : Char) : Option Lexer := do
  let s ← s.markKey
  let (text, place) ← scanQuoted quote [] (s.place.skip 1)
  return { s with place := place, keyAllowed := false }.emit (.scalar false text)

def plainScalar (s : Lexer) : Option Lexer := do
  let s ← s.markKey
  let (text, place, broken) ← scanPlain s.inFlow (s.indent + 1) [] {} s.place
  return { s with place := place, keyAllowed := broken }.emit (.scalar true text)

/-! ## The whole text -/

/-- skip blanks, comments and line ends; in blocks, a simple key may begin on a new line -/
def toNext (inFlow : Bool) (keyAllowed : Bool) (c : Cursor) : Bool × Cursor :=
  let c₁ := c.skipWhile (fun ch => ch == ' ' || ((inFlow || !keyAllowed) && ch == '\t'))
  let c₂ := if c₁.head? == some '#' then c₁.skipWhile (fun ch => !isBreak ch) else c₁
  match lineBreak? c₂.rest with
  | none => (keyAllowed, c₂)
  | some (_, after) =>
    if _shorter : after.length < c.rest.length then toNext inFlow (!inFlow || keyAllowed) (c₂.newline after)
    else (keyAllowed, c₂)
termination_by c.rest.length
decreasing_by simp_all [Cursor.newline]

/-- characters that cannot begin a plain scalar -/
def isSign (c : Char) : Bool := "-?:,[]\x7b\x7d#&*!|>'\"%@\x60".toList.contains c

/-- whether a plain scalar may begin -/
def plainAhead (inFlow : Bool) : List Char → Bool
  | [] => false
  | '-' :: rest => !rest.head?.any isTabOrSpace
  | c :: rest => if c = '?' ∨ c = ':' then !inFlow && !gapAhead rest else !isGap c && !isSign c

/-- the next token of a text that has not ended -/
def next (s : Lexer) : Option Lexer :=
  let gap := gapAhead (s.place.rest.drop 1)
  match s.place.head? with
  | none => none
  | some c =>
    if c = '%' ∧ s.place.column = 0 then s.directiveLine
    else if markerAhead '-' s.place then s.documentMarker .documentStart
    else if markerAhead '.' s.place then s.documentMarker .documentEnd
    else if c = '[' then s.openFlow .flowSequenceStart
    else if c = '\x7b' then s.openFlow .flowMappingStart
    else if c = ']' then s.closeFlow .flowSequenceEnd
    else if c = '\x7d' then s.closeFlow .flowMappingEnd
    else if c = ',' then s.flowEntry
    else if c = '-' ∧ gap then s.blockEntry
    else if c = '?' ∧ (s.inFlow ∨ gap) then s.keySign
    else if c = ':' ∧ (s.inFlow ∨ gap) then s.valueSign
    else if c = '*' then s.nameSign .reference
    else if c = '&' then s.nameSign .anchor
    else if c = '!' then s.tagSign
    else if c = '|' ∧ !s.inFlow then s.blockScalar true
    else if c = '>' ∧ !s.inFlow then s.blockScalar false
    else if c = '\'' ∨ c = '"' then s.quotedScalar c
    else if plainAhead s.inFlow s.place.rest then s.plainScalar
    else none

/-- nothing is left: close what is open -/
def finish (s : Lexer) : Option (List Token) :=
  ((s.unroll (-1)).dropKey).map (fun s => s.found.reverse)

/-- all tokens from here on -/
def run (s : Lexer) : Option (List Token) :=
  let (keyAllowed, place) := toNext s.inFlow s.keyAllowed s.place
  match ({ s with keyAllowed := keyAllowed, place := place } : Lexer).dropStale with
  | none => none
  | some s₁ =>
    let s₁ := s₁.unroll s₁.place.column
    if s₁.place.rest.isEmpty then s₁.finish
    else
      match s₁.next with
      | none => none
      | some s₂ => if _shorter : s₂.place.rest.length < s.place.rest.length then run s₂ else none
termination_by s.place.rest.length

end Lexer

/-- the tokens of a text; a mark of byte order at its start takes up a column -/
def tokens? (text : String) : Option (List Token) :=
  let cs := text.toList
  let start : Cursor := ⟨cs, 0, 0, 0⟩
  let start := if start.head? == some '\uFEFF' then start.skip 1 else start
  if cs.all isAllowed then Lexer.run { place := start } else none

end RepoTutor.Yaml
