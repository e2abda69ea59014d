/-
Glob patterns over paths.

`*` stands for any run of bytes, also across `/`, `?` for one byte, `[...]` for one byte of a set, `{a,b}` for one of
its alternatives, and a backslash keeps the next character. Between separators `**` stands for any number of
directories. Patterns are matched against the UTF-8 bytes of a whole path.
-/
import RepoTutor.Text.Basic

namespace RepoTutor.Pattern

/-- bytes from `low` to `high` -/
structure ByteRange where
  low : UInt8
  high : UInt8
  deriving DecidableEq, Repr

inductive GlobToken where
  | literal (c : Char)
  /-- one byte -/
  | any
  /-- any run of bytes -/
  | run
  /-- nothing, or directories up to a separator -/
  | directoriesFirst
  /-- a separator and anything after it -/
  | directoriesLast
  /-- a separator, or directories between two separators -/
  | directoriesBetween
  /-- one byte inside or outside a set -/
  | set (negated : Bool) (ranges : List ByteRange)
  | alternatives (branches : List (List GlobToken))

namespace Glob

def charBytes (c : Char) : List UInt8 := (String.singleton c).toUTF8.toList

/-- single bytes as ranges -/
def single (b : UInt8) : ByteRange := ⟨b, b⟩

/-- what a range of characters stands for in a set of bytes: only the bytes next to the dash form a range -/
def byteRanges (low high : Char) : List ByteRange :=
  if low = high then (charBytes low).map single
  else
    let a := charBytes low
    let b := charBytes high
    (a.dropLast.map single) ++ [⟨a.getLastD 0, b.headD 0⟩] ++ (b.drop 1).map single

/-! ## Reading -/

/-- the set under construction: ranges with the latest first -/
structure SetState where
  ranges : List (Char × Char)
  first : Bool
  inRange : Bool

/-- the ranges of a set after its opening bracket, and the rest; `none` when it does not end or a range is reversed -/
def setRanges? (s : SetState) : List Char → Option (List (Char × Char) × List Char)
  | [] => none
  | c :: rest =>
    if c = ']' ∧ !s.first then
      let ranges := if s.inRange then ('-', '-') :: s.ranges else s.ranges
      some (ranges.reverse, rest)
    else if c = '-' ∧ !s.first ∧ !s.inRange then setRanges? { s with inRange := true } rest
    else if s.inRange then
      match s.ranges with
      | [] => none
      | (low, _) :: ranges =>
        if c < low then none else setRanges? ⟨(low, c) :: ranges, false, false⟩ rest
    else setRanges? ⟨(c, c) :: s.ranges, false, false⟩ rest

/-- a set after its opening bracket, and the rest -/
def set? (cs : List Char) : Option (GlobToken × List Char) :=
  let (negated, body) := match cs with
    | '!' :: rest => (true, rest)
    | '^' :: rest => (true, rest)
    | _ => (false, cs)
  (setRanges? ⟨[], true, false⟩ body).map
    (fun r => (.set negated (r.1.flatMap (fun p => byteRanges p.1 p.2)), r.2))

/-- a group under construction: its finished alternatives and the tokens of the current one, both latest first -/
structure Group where
  finished : List (List GlobToken)
  current : List GlobToken

def Group.push (g : Group) (t : GlobToken) : Group := { g with current := t :: g.current }

/-- begin the next alternative -/
def Group.next (g : Group) : Group := ⟨g.current :: g.finished, []⟩

/-- the alternatives in order, each with its tokens in order -/
def Group.close (g : Group) : List (List GlobToken) := ((g.current :: g.finished).reverse).map List.reverse

/-- `**` after at least one token, with the character before it and the characters after it: the token that replaces
the latest one, and the rest; `none` when it is no more than a run -/
def directories? (inside : Bool) (prev : Option Char) (last : Option GlobToken) (rest : List Char) :
    Option (GlobToken × List Char) :=
  let opens := prev = some '/' ∨ (inside ∧ (prev = some ',' ∨ prev = some '{'))
  let replacing (t : GlobToken) : GlobToken :=
    match last with
    | some .directoriesFirst => .directoriesFirst
    | some .directoriesLast => .directoriesLast
    | _ => t
  if !opens then none
  else
    match rest with
    | [] => some (replacing .directoriesLast, [])
    | c :: rest' =>
      if inside ∧ (c = ',' ∨ c = '}') then some (replacing .directoriesLast, rest)
      else if c = '/' then some (replacing .directoriesBetween, rest')
      else none

/-- `**` before any token of its alternative: whether it stands for directories, and the rest -/
def leadingDirectories? : List Char → Option (List Char)
  | [] => some []
  | c :: rest => if c = '/' then some rest else none

/-- tokens of a pattern, with the groups that are open and the character read last -/
def tokens? (g : Group) (outer : List Group) (prev : Option Char) : List Char → Option (List GlobToken)
  | [] => if outer.isEmpty then some g.current.reverse else none
  | '?' :: rest => tokens? (g.push .any) outer (some '?') rest
  | '*' :: '*' :: rest =>
    if g.current.isEmpty then
      match leadingDirectories? rest with
      | none => tokens? ((g.push .run).push .run) outer (some '*') rest
      | some rest' =>
        if _shorter : rest'.length < rest.length + 2 then
          tokens? (g.push .directoriesFirst) outer (if rest.isEmpty then none else some '/') rest'
        else none
    else
      match directories? (!outer.isEmpty) prev g.current.head? rest with
      | none => tokens? ((g.push .run).push .run) outer (some '*') rest
      | some (t, rest') =>
        if _shorter : rest'.length < rest.length + 2 then
          tokens? { g with current := t :: g.current.drop 1 } outer
            (if rest'.length < rest.length then some '/' else some '*') rest'
        else none
  | '*' :: rest => tokens? (g.push .run) outer (some '*') rest
  | '[' :: rest =>
    match set? rest with
    | none => none
    | some (t, rest') =>
      if _shorter : rest'.length < rest.length + 1 then tokens? (g.push t) outer (some ']') rest' else none
  | '{' :: rest => tokens? ⟨[], []⟩ (g :: outer) (some '{') rest
  | '}' :: rest =>
    match outer with
    | [] => none
    | o :: outer => tokens? (o.push (.alternatives g.close)) outer (some '}') rest
  | ',' :: rest =>
    if outer.isEmpty then tokens? (g.push (.literal ',')) outer (some ',') rest
    else tokens? g.next outer (some ',') rest
  | '\\' :: c :: rest => tokens? (g.push (.literal c)) outer (some c) rest
  | '\\' :: [] => none
  | c :: rest => tokens? (g.push (.literal c)) outer (some c) rest
termination_by cs => cs.length
decreasing_by all_goals (simp only [List.length_cons] at *; omega)

/-! ## Matching -/

/-- the byte that separates directories -/
def separator : UInt8 := 47

/-- every rest of a list, the whole list first -/
def rests : List UInt8 → List (List UInt8)
  | [] => [[]]
  | b :: bs => (b :: bs) :: rests bs

/-- every rest that follows a separator -/
def afterSeparators : List UInt8 → List (List UInt8)
  | [] => []
  | b :: bs => if b = separator then bs :: afterSeparators bs else afterSeparators bs

def ByteRange.holds (r : ByteRange) (b : UInt8) : Bool := r.low ≤ b && b ≤ r.high

mutual

/-- whether a token stands for nothing at all: a group of empty alternatives -/
def isVoid : GlobToken → Bool
  | .alternatives branches => areVoid branches
  | _ => false

def allVoid : List GlobToken → Bool
  | [] => true
  | t :: ts => isVoid t && allVoid ts

def areVoid : List (List GlobToken) → Bool
  | [] => true
  | ts :: more => allVoid ts && areVoid more

end

mutual

/-- what can be left after a token has matched from the front -/
def matchToken : GlobToken → List UInt8 → List (List UInt8)
  | .literal c, bs => (Text.dropPrefix? (charBytes c) bs).toList
  | .any, bs => match bs with
    | [] => []
    | _ :: rest => [rest]
  | .run, bs => rests bs
  | .directoriesFirst, bs => bs :: afterSeparators bs
  | .directoriesLast, bs => match bs with
    | [] => []
    | b :: rest => if b = separator then rests rest else []
  | .directoriesBetween, bs => match bs with
    | [] => []
    | b :: rest => if b = separator then rest :: afterSeparators rest else []
  | .set negated ranges, bs => match bs with
    | [] => []
    | b :: rest => if ranges.any (fun r => ByteRange.holds r b) != negated then [rest] else []
  | .alternatives branches, bs => if areVoid branches then [bs] else matchBranches branches bs

/-- what can be left after a list of tokens has matched from the front -/
def matchTokens : List GlobToken → List UInt8 → List (List UInt8)
  | [], bs => [bs]
  | t :: ts, bs => (matchToken t bs).eraseDups.flatMap (matchTokens ts)

/-- what can be left after one of the alternatives; an empty one does not count -/
def matchBranches : List (List GlobToken) → List UInt8 → List (List UInt8)
  | [], _ => []
  | ts :: more, bs => (if allVoid ts then [] else matchTokens ts bs) ++ matchBranches more bs

end

end Glob

/-- a pattern that has been read -/
structure Glob where
  tokens : List GlobToken

namespace Glob

/-- read a pattern; `none` when a set or a group does not end, a range is reversed or a last backslash keeps nothing -/
def ofText? (pattern : String) : Option Glob := (tokens? ⟨[], []⟩ [] none pattern.toList).map (⟨·⟩)

/-- whether a whole path matches; `**` alone matches every path -/
def isMatch (g : Glob) (path : String) : Bool :=
  match g.tokens with
  | [.directoriesFirst] => true
  | ts => (matchTokens ts path.toUTF8.toList).any List.isEmpty

end Glob

end RepoTutor.Pattern
