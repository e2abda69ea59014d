/-
Reading regular expressions.

The syntax has literals, classes with set operations, groups with names and flags, greedy and lazy repetitions, and
conditions on places; classes and case follow Unicode unless the flag `u` is cleared. There is no look-around and there
are no references to groups. A text that breaks a rule, or an expression that would take too much room, is refused.
-/
import RepoTutor.Numeric.Word
import RepoTutor.Json.Parser
import RepoTutor.Pattern.ClassName
import RepoTutor.Text.Case

namespace RepoTutor.Pattern.Regex

/-! ## Flags -/

structure Flags where
  anyCase : Bool := false
  multiLine : Bool := false
  dotAll : Bool := false
  swapGreed : Bool := false
  unicode : Bool := true
  returns : Bool := false
  verbose : Bool := false

/-- the flags with the one that a letter names set or cleared -/
def Flags.put (f : Flags) (value : Bool) : Char → Option Flags
  | 'i' => some { f with anyCase := value }
  | 'm' => some { f with multiLine := value }
  | 's' => some { f with dotAll := value }
  | 'U' => some { f with swapGreed := value }
  | 'u' => some { f with unicode := value }
  | 'R' => some { f with returns := value }
  | 'x' => some { f with verbose := value }
  | _ => none

/-! ## Sets -/

def single (c : Char) : CharSet := fun d => d == c

def range (low high : Char) : CharSet := fun c => low ≤ c && c ≤ high

def union (a b : CharSet) : CharSet := fun c => a c || b c

def complement (a : CharSet) : CharSet := fun c => !a c

/-- the set closed under change of case, when the flags ask for it -/
def Flags.fold (f : Flags) (a : CharSet) : CharSet :=
  if f.anyCase then
    if f.unicode then fun c => (Text.caseVariants c).any a
    else fun c => a c || a (Text.latinLower c) || a (if 'a' ≤ c && c ≤ 'z' then Char.ofNat (c.toNat - 32) else c)
  else a

def isLatin (c : Char) : Bool := c.toNat < 128

def isLatinBlank (c : Char) : Bool := c == ' ' || (9 ≤ c.toNat && c.toNat ≤ 13)

/-- the class of a letter after a backslash, with its weight -/
def Flags.perl (f : Flags) : Char → Option (Nat × CharSet)
  | 'd' => some (if f.unicode then (150, Text.isDecimalDigit) else (1, Text.isDigit))
  | 's' => some (if f.unicode then (30, Text.isBlank) else (1, isLatinBlank))
  | 'w' => some (if f.unicode then (1000, Text.isWordChar)
      else (1, fun c => Text.isLatinAlphanumeric c || c == '_'))
  | _ => none

/-- classes that have a name between colons -/
def namedClass : String → Option CharSet
  | "alnum" => some Text.isLatinAlphanumeric
  | "alpha" => some Text.isLatinLetter
  | "ascii" => some isLatin
  | "blank" => some (fun c => c == ' ' || c == '\t')
  | "cntrl" => some (fun c => c.toNat < 32 || c.toNat == 127)
  | "digit" => some Text.isDigit
  | "graph" => some (fun c => 33 ≤ c.toNat && c.toNat ≤ 126)
  | "lower" => some (range 'a' 'z')
  | "print" => some (fun c => 32 ≤ c.toNat && c.toNat ≤ 126)
  | "punct" => some (fun c => 33 ≤ c.toNat && c.toNat ≤ 126 && !Text.isLatinAlphanumeric c)
  | "space" => some isLatinBlank
  | "upper" => some (range 'A' 'Z')
  | "word" => some (fun c => Text.isLatinAlphanumeric c || c == '_')
  | "xdigit" => some Text.isHexDigit
  | _ => none

/-! ## Conditions -/

def atStart : Condition := fun before _ => before.isNone

def atEnd : Condition := fun _ after => after.isNone

def lineStart (returns : Bool) : Condition := fun before after =>
  match before with
  | none => true
  | some c => c == '\n' || (returns && c == '\r' && after != some '\n')

def lineEnd (returns : Bool) : Condition := fun before after =>
  match after with
  | none => true
  | some c => (c == '\n' && !(returns && before == some '\r')) || (returns && c == '\r')

def Flags.wordSet (f : Flags) : CharSet :=
  if f.unicode then Text.isWordChar else fun c => Text.isLatinAlphanumeric c || c == '_'

/-- a condition on whether the characters on both sides belong to words -/
def Flags.words (f : Flags) (p : Bool → Bool → Bool) : Condition := fun before after =>
  p (before.any f.wordSet) (after.any f.wordSet)

/-! ## Escapes -/

/-- blanks that do not count in verbose mode -/
def Flags.skipBlanks (f : Flags) (cs : List Char) : List Char :=
  if f.verbose then cs.dropWhile Text.isBlank else cs

/-- what an escape stands for -/
inductive Escape where
  | char (c : Char)
  | set (weight : Nat) (holds : CharSet)
  | look (holds : Condition)

/-- the character with this code point, if there is one -/
def charOf? (n : Nat) : Option Char := if Nat.isValidChar n then some (Char.ofNat n) else none

/-- the number that hexadecimal digits denote -/
def hexNumber? (cs : List Char) : Option Nat :=
  cs.foldlM (fun n c => (Json.hexValue? c).map (fun d => n * 16 + d)) 0

/-- a code point of `width` digits, or of any number of digits in braces -/
def codePoint? (width : Nat) : List Char → Option (Char × List Char)
  | '\x7b' :: rest =>
    let ds := rest.takeWhile (· != '\x7d')
    match rest.dropWhile (· != '\x7d') with
    | [] => none
    | _ :: after => if ds.isEmpty then none else do
      let n ← hexNumber? ds
      let c ← charOf? n
      return (c, after)
  | cs =>
    let ds := cs.take width
    if ds.length < width then none else do
      let n ← hexNumber? ds
      let c ← charOf? n
      return (c, cs.drop width)

/-- the condition of a word boundary that is named in braces -/
def Flags.namedBoundary (f : Flags) : String → Option Condition
  | "start" => some (f.words (fun a b => !a && b))
  | "end" => some (f.words (fun a b => a && !b))
  | "start-half" => some (f.words (fun a _ => !a))
  | "end-half" => some (f.words (fun _ b => !b))
  | _ => none

/-- a word boundary after its letter: a name in braces narrows it -/
def Flags.boundary? (f : Flags) (rest : List Char) : Option (Escape × List Char) :=
  let plain := some (Escape.look (f.words (fun a b => a != b)), rest)
  match rest with
  | '\x7b' :: body =>
    let name := body.takeWhile (fun c => Text.isLatinLetter c || c == '-')
    let after := body.dropWhile (fun c => Text.isLatinLetter c || c == '-')
    if name.isEmpty then (if body.isEmpty then none else plain)
    else
      match after with
      | '\x7d' :: after => (f.namedBoundary (String.ofList name)).map (fun h => (.look h, after))
      | _ => none
  | _ => plain

/-- a named class after its letter: one more letter, or a name in braces -/
def Flags.named? (f : Flags) (negated : Bool) (cs : List Char) : Option (Escape × List Char) :=
  let finish (found : Option CharSet) (rest : List Char) : Option (Escape × List Char) :=
    found.map (fun s => (.set 1000 (if negated then complement (f.fold s) else f.fold s), rest))
  if !f.unicode then none
  else
    match f.skipBlanks cs with
    | '\x7b' :: rest =>
      match rest.dropWhile (· != '\x7d') with
      | [] => none
      | _ :: after =>
        let name := rest.takeWhile (· != '\x7d')
        finish (classWritten? (if f.verbose then name.filter (fun c => !Text.isBlank c) else name)) after
    | c :: rest => if c = '\\' then none else finish (classNamed? (plainName [c])) rest
    | [] => none

/-- an escape after its backslash, and the rest -/
def Flags.escape? (f : Flags) : List Char → Option (Escape × List Char)
  | [] => none
  | c :: rest =>
    match f.perl c with
    | some (weight, s) => some (.set weight s, rest)
    | none =>
      match c with
      | 'D' => if f.unicode then some (.set 150 (complement Text.isDecimalDigit), rest) else none
      | 'S' => if f.unicode then some (.set 30 (complement Text.isBlank), rest) else none
      | 'W' => if f.unicode then some (.set 1000 (complement Text.isWordChar), rest) else none
      | 'p' => f.named? false rest
      | 'P' => f.named? true rest
      | 'a' => some (.char (Char.ofNat 7), rest)
      | 'f' => some (.char (Char.ofNat 12), rest)
      | 't' => some (.char '\t', rest)
      | 'n' => some (.char '\n', rest)
      | 'r' => some (.char '\r', rest)
      | 'v' => some (.char (Char.ofNat 11), rest)
      | 'x' => (codePoint? 2 rest).map (fun r => (.char r.1, r.2))
      | 'u' => (codePoint? 4 rest).map (fun r => (.char r.1, r.2))
      | 'U' => (codePoint? 8 rest).map (fun r => (.char r.1, r.2))
      | 'A' => some (.look atStart, rest)
      | 'z' => some (.look atEnd, rest)
      | 'b' => f.boundary? rest
      | 'B' => if f.unicode then some (.look (f.words (fun a b => a == b)), rest) else none
      | '<' => some (.look (f.words (fun a b => !a && b)), rest)
      | '>' => some (.look (f.words (fun a b => a && !b)), rest)
      | _ => if isLatin c && !Text.isLatinAlphanumeric c then some (.char c, rest) else none

/-! ## Bracketed classes -/

/-- set operations inside brackets -/
inductive SetOp where
  | intersection
  | difference
  | symmetricDifference

def SetOp.apply : SetOp → CharSet → CharSet → CharSet
  | intersection, a, b => fun c => a c && b c
  | difference, a, b => fun c => a c && !b c
  | symmetricDifference, a, b => fun c => a c != b c

/-- a bracket being read: what stands left of the last operator, and the items after it -/
structure Bracket where
  negated : Bool
  left : Option (CharSet × SetOp)
  items : CharSet

def Bracket.add (b : Bracket) (s : CharSet) : Bracket := { b with items := union b.items s }

/-- the set up to here -/
def Bracket.value (b : Bracket) : CharSet :=
  match b.left with
  | none => b.items
  | some (a, op) => op.apply a b.items

def Bracket.operator (b : Bracket) (op : SetOp) : Bracket := ⟨b.negated, some (b.value, op), fun _ => false⟩

def Bracket.close (b : Bracket) : CharSet := if b.negated then complement b.value else b.value

/-- dashes at the front of a bracket -/
def leadingDashes (b : Bracket) : List Char → Bracket × List Char
  | '-' :: rest => leadingDashes (b.add (single '-')) rest
  | cs => (b, cs)

/-- a bracket after its opening: negation, leading dashes and a leading closing bracket are read -/
def openBracket (cs : List Char) : Bracket × List Char :=
  let (negated, cs) := match cs with
    | '^' :: rest => (true, rest)
    | _ => (false, cs)
  let (b, after) := leadingDashes ⟨negated, none, fun _ => false⟩ cs
  match after with
  | ']' :: rest => if after.length = cs.length then (b.add (single ']'), rest) else (b, after)
  | _ => (b, after)

/-- a class named between colons after its opening bracket, and the rest -/
def colonClass? : List Char → Option (CharSet × List Char)
  | ':' :: rest =>
    let (negated, rest) := match rest with
      | '^' :: rest => (true, rest)
      | _ => (false, rest)
    let name := rest.takeWhile (· != ':')
    match rest.dropWhile (· != ':') with
    | ':' :: ']' :: after =>
      (namedClass (String.ofList name)).map (fun s => (if negated then complement s else s, after))
    | _ => none
  | _ => none

/-- one member of a bracket: a character or a class -/
inductive Member where
  | char (c : Char)
  | set (holds : CharSet)

def Flags.member? (f : Flags) : List Char → Option (Member × List Char)
  | [] => none
  | '\\' :: rest =>
    match f.escape? rest with
    | some (.char c, rest) => some (.char c, rest)
    | some (.set _ s, rest) => some (.set s, rest)
    | _ => none
  | c :: rest => some (.char c, rest)

/-- a member or a range of characters, and the rest -/
def Flags.rangeOrMember? (f : Flags) (cs : List Char) : Option (CharSet × List Char) := do
  let (m, rest) ← f.member? cs
  let alone : CharSet := match m with
    | .char c => single c
    | .set s => s
  match f.skipBlanks rest with
  | '-' :: after =>
    match f.skipBlanks after with
    | [] => none
    | ']' :: _ => some (alone, f.skipBlanks rest)
    | '-' :: _ => some (alone, f.skipBlanks rest)
    | after => do
      let (m', rest) ← f.member? after
      match m, m' with
      | .char a, .char b => if a ≤ b then some (range a b, rest) else none
      | _, _ => none
  | rest => some (alone, rest)

/-- the set of a bracket, with the brackets around it, and the rest -/
def Flags.bracket? (f : Flags) (b : Bracket) (outer : List Bracket) (cs : List Char) :
    Option (CharSet × List Char) :=
  match f.skipBlanks cs with
  | [] => none
  | '[' :: rest =>
    match colonClass? rest with
    | some (s, rest') =>
      if _shorter : rest'.length < cs.length then f.bracket? (b.add (f.fold s)) outer rest' else none
    | none =>
      let (inner, rest') := openBracket rest
      if _shorter : rest'.length < cs.length then
        f.bracket? { inner with items := f.fold inner.items } (b :: outer) rest'
      else none
  | ']' :: rest =>
    match outer with
    | [] => some (b.close, rest)
    | o :: outer =>
      if _shorter : rest.length < cs.length then f.bracket? (o.add b.close) outer rest else none
  | '&' :: '&' :: rest =>
    if _shorter : rest.length < cs.length then f.bracket? (b.operator .intersection) outer rest else none
  | '-' :: '-' :: rest =>
    if _shorter : rest.length < cs.length then f.bracket? (b.operator .difference) outer rest else none
  | '~' :: '~' :: rest =>
    if _shorter : rest.length < cs.length then f.bracket? (b.operator .symmetricDifference) outer rest else none
  | cs' =>
    match f.rangeOrMember? cs' with
    | none => none
    | some (s, rest) =>
      if _shorter : rest.length < cs.length then f.bracket? (b.add (f.fold s)) outer rest else none
termination_by cs.length

/-- a bracketed class after its opening bracket, and the rest; without Unicode it may hold no more than ASCII -/
def Flags.class? (f : Flags) (cs : List Char) : Option (Regex × List Char) := do
  let (b, rest) := openBracket cs
  let (s, rest) ← f.bracket? { b with items := f.fold b.items } [] rest
  if f.unicode then return (.set (if b.negated then 20 else 2) s, rest)
  else if b.negated then none
  else return (.set 2 (fun c => isLatin c && s c), rest)

/-! ## Groups and repetitions -/

/-- a group being read: finished alternatives and the items of the current one, latest first; an item without an
expression sets flags -/
structure Group where
  finished : List Regex
  items : List (Option Regex)
  /-- flags to go back to when the group ends -/
  saved : Flags

def Group.push (g : Group) (e : Regex) : Group := { g with items := some e :: g.items }

/-- the items of the current alternative as one expression -/
def Group.sequence (g : Group) : Regex :=
  (g.items.filterMap id).foldl (fun acc e => match acc with
    | .empty => e
    | _ => .cat e acc) .empty

def Group.next (g : Group) : Group := { g with finished := g.sequence :: g.finished, items := [] }

/-- all alternatives as one expression -/
def Group.close (g : Group) : Regex := g.finished.foldl (fun acc e => .alt e acc) g.sequence

/-- repeat the latest item -/
def Group.repeatLast (g : Group) (min : Nat) (max : Option Nat) : Option Group :=
  match g.items with
  | some e :: items => some { g with items := some (.many e min max) :: items }
  | _ => none

/-- what an opening parenthesis begins -/
inductive Opening where
  /-- flags for the rest of the group around it -/
  | flags (f : Flags)
  /-- a group with its flags and, for a named one, its name -/
  | group (f : Flags) (name : Option String)

/-- letters of flags up to a colon or a closing parenthesis: the flags, the letters, and the rest from there on -/
def flagLetters? (f : Flags) (negated : Bool) (used : List Char) (dangling : Bool) :
    List Char → Option (Flags × List Char × List Char)
  | [] => none
  | c :: rest =>
    if c = ':' ∨ c = ')' then (if dangling then none else some (f, used, c :: rest))
    else if c = '-' then (if negated then none else flagLetters? f true used true rest)
    else if used.contains c then none
    else
      match f.put (!negated) c with
      | some f => flagLetters? f negated (c :: used) false rest
      | none => none

def isNameStart (c : Char) : Bool := c == '_' || (Text.isWordChar c && !Text.isDecimalDigit c)

def isNameChar (c : Char) : Bool := c == '.' || c == '[' || c == ']' || Text.isWordChar c

/-- a group's name up to its closing bracket -/
def groupName? (cs : List Char) : Option (String × List Char) :=
  let name := cs.takeWhile (· != '>')
  match name, cs.dropWhile (· != '>') with
  | c :: more, _ :: rest =>
    if isNameStart c && more.all isNameChar then some (String.ofList name, rest) else none
  | _, _ => none

/-- what follows an opening parenthesis, and the rest -/
def opening? (f : Flags) : List Char → Option (Opening × List Char)
  | '?' :: 'P' :: '<' :: rest => (groupName? rest).map (fun r => (.group f (some r.1), r.2))
  | '?' :: '<' :: '=' :: _ => none
  | '?' :: '<' :: '!' :: _ => none
  | '?' :: '<' :: rest => (groupName? rest).map (fun r => (.group f (some r.1), r.2))
  | '?' :: rest =>
    match flagLetters? f false [] false rest with
    | some (f', used, ')' :: rest) => if used.isEmpty then none else some (.flags f', rest)
    | some (f', _, _ :: rest) => some (.group f' none, rest)
    | _ => none
  | cs => some (.group f none, cs)

/-- a count below 2^32 with blanks around it, and the rest; no count when there are no digits -/
def count? (f : Flags) (cs : List Char) : Option (Option Nat × List Char) :=
  let cs := cs.dropWhile Text.isBlank
  let ds := cs.takeWhile Text.isDigit
  let rest := (f.skipBlanks (cs.dropWhile Text.isDigit)).dropWhile Text.isBlank
  if ds.isEmpty then some (none, rest)
  else
    let n := Text.digitsValue ds
    if n < wordCount 32 then some (some n, rest) else none

/-- the bounds of a counted repetition after its opening brace, and the rest -/
def bounds? (f : Flags) (cs : List Char) : Option ((Nat × Option Nat) × List Char) := do
  let (low, rest) ← count? f cs
  let low ← low
  match rest with
  | '\x7d' :: rest => return ((low, some low), rest)
  | ',' :: rest =>
    match f.skipBlanks rest with
    | '\x7d' :: rest => return ((low, none), rest)
    | rest => do
      let (high, rest) ← count? f rest
      let high ← high
      match rest with
      | '\x7d' :: rest => if low ≤ high then return ((low, some high), rest) else none
      | _ => none
  | _ => none

/-- drop the mark of a lazy repetition; it does not change whether there is a match -/
def dropLazy (f : Flags) (cs : List Char) : List Char :=
  match f.skipBlanks cs with
  | '?' :: rest => rest
  | cs => cs

/-- blanks and comments of verbose mode -/
def skipVerbose (inComment : Bool) : List Char → List Char
  | [] => []
  | c :: rest =>
    if inComment then skipVerbose (c != '\n') rest
    else if Text.isBlank c then skipVerbose false rest
    else if c = '#' then skipVerbose true rest
    else c :: rest

def Flags.skip (f : Flags) (cs : List Char) : List Char := if f.verbose then skipVerbose false cs else cs

/-- one character as an expression -/
def Flags.literal (f : Flags) (c : Char) : Regex := .set 1 (f.fold (single c))

def Flags.dot (f : Flags) : Option Regex :=
  if !f.unicode then none
  else if f.dotAll then some (.set 10 (fun _ => true))
  else if f.returns then some (.set 10 (fun c => c != '\n' && c != '\r'))
  else some (.set 10 (fun c => c != '\n'))

/-- the expression of a single sign that is neither a group nor a repetition, and the rest -/
def Flags.atom? (f : Flags) : List Char → Option (Regex × List Char)
  | [] => none
  | '[' :: rest => f.class? rest
  | '.' :: rest => f.dot.map (fun e => (e, rest))
  | '^' :: rest => some (.look (if f.multiLine then lineStart f.returns else atStart), rest)
  | '$' :: rest => some (.look (if f.multiLine then lineEnd f.returns else atEnd), rest)
  | '\\' :: rest =>
    match f.escape? rest with
    | some (.char c, rest) => some (f.literal c, rest)
    | some (.set weight s, rest) => some (.set weight s, rest)
    | some (.look h, rest) => some (.look h, rest)
    | none => none
  | c :: rest => some (f.literal c, rest)

/-- the bounds of a repetition sign, if one begins the text, and the rest -/
def repetition? (f : Flags) : List Char → Option (Option ((Nat × Option Nat) × List Char))
  | '*' :: rest => some (some ((0, none), rest))
  | '+' :: rest => some (some ((1, none), rest))
  | '?' :: rest => some (some ((0, some 1), rest))
  | '\x7b' :: rest => (bounds? f rest).map some
  | _ => some none

/-- an expression, with the group being read, the groups around it, the flags and the names in use -/
def parseFrom? (g : Group) (outer : List Group) (f : Flags) (names : List String) (cs : List Char) : Option Regex :=
  match f.skip cs with
  | [] => if outer.isEmpty then some g.close else none
  | '(' :: rest =>
    match opening? f (f.skipBlanks rest) with
    | none => none
    | some (.flags f', rest') =>
      if _shorter : rest'.length < cs.length then
        parseFrom? { g with items := none :: g.items } outer f' names rest'
      else none
    | some (.group f' name, rest') =>
      if name.any names.contains then none
      else if _shorter : rest'.length < cs.length then
        parseFrom? ⟨[], [], f⟩ (g :: outer) f' (name.toList ++ names) rest'
      else none
  | ')' :: rest =>
    match outer with
    | [] => none
    | o :: outer =>
      if _shorter : rest.length < cs.length then parseFrom? (o.push g.close) outer g.saved names rest else none
  | '|' :: rest =>
    if _shorter : rest.length < cs.length then parseFrom? g.next outer f names rest else none
  | cs' =>
    match repetition? f cs' with
    | none => none
    | some (some ((min, max), rest)) =>
      match g.repeatLast min max with
      | none => none
      | some g =>
        if _shorter : (dropLazy f rest).length < cs.length then parseFrom? g outer f names (dropLazy f rest) else none
    | some none =>
      match f.atom? cs' with
      | none => none
      | some (e, rest) =>
        if _shorter : rest.length < cs.length then parseFrom? (g.push e) outer f names rest else none
termination_by cs.length

/-- greatest size of an expression: an estimate of what compiles within 10 MiB, the limit of the regular expression
library, since the weights of sets and the size do not follow its compiled programs byte by byte -/
def maxSize : Nat := 300000

/-- read a regular expression -/
def ofText? (pattern : String) : Option Regex := do
  let e ← parseFrom? ⟨[], [], {}⟩ [] {} [] pattern.toList
  if e.size ≤ maxSize then return e else none

end RepoTutor.Pattern.Regex
