/-
The texts of scalars: plain, in single or double quotes, and in blocks.

Line ends inside a scalar are folded: a single one becomes a space, and of several the first is dropped. A block keeps
its line ends when it is literal, and an indentation tells where it ends.
-/
import RepoTutor.Json.Parser
import RepoTutor.Yaml.Cursor

namespace RepoTutor.Yaml

/-! ## Blanks and line ends inside a scalar -/

/-- what stands between two runs of characters -/
structure Spacing where
  /-- a line end was met -/
  broken : Bool := false
  /-- blanks before the first line end -/
  blanks : List Char := []
  /-- the first line end -/
  first : Option Char := none
  /-- further line ends -/
  more : List Char := []

/-- the characters that spacing comes to -/
def Spacing.fold (s : Spacing) : List Char :=
  if s.broken then
    match s.first with
    | some '\n' => if s.more.isEmpty then [' '] else s.more
    | some c => c :: s.more
    | none => s.more
  else s.blanks

/-- blanks and line ends ahead; `none` when a tab stands left of an indentation -/
def scanSpacing (indent : Option Int) (s : Spacing) (c : Cursor) : Option (Spacing × Cursor) :=
  match _h : c.rest with
  | [] => some (s, c)
  | ch :: rest =>
    if isTabOrSpace ch then
      if s.broken then
        if ch == '\t' && indent.any (fun i => (c.column : Int) < i) then none
        else scanSpacing indent s (c.advance rest)
      else scanSpacing indent { s with blanks := s.blanks ++ [ch] } (c.advance rest)
    else
      match lineBreak? (ch :: rest) with
      | none => some (s, c)
      | some (b, after) =>
        if _shorter : after.length < c.rest.length then
          if s.broken then scanSpacing indent { s with more := s.more ++ [b] } (c.newline after)
          else scanSpacing indent { s with broken := true, blanks := [], first := some b } (c.newline after)
        else none
termination_by c.rest.length
decreasing_by all_goals simp_all [Cursor.advance, Cursor.newline]

/-! ## Plain scalars -/

/-- characters that end a plain scalar inside brackets or braces -/
def isFlowSign (c : Char) : Bool := c == ',' || c == '[' || c == ']' || c == '\x7b' || c == '\x7d'

/-- whether the characters ahead end a run of a plain scalar -/
def endsPlain (flow : Bool) : List Char → Bool
  | [] => true
  | ch :: rest => isGap ch || (ch == ':' && gapAhead rest) || (flow && isFlowSign ch)

/-- a colon that goes on with a sign of brackets or braces -/
def badColon (flow : Bool) : List Char → Bool
  | ':' :: ch :: _ => flow && (isFlowSign ch || ch == '?')
  | _ => false

/-- characters without gaps up to a sign that ends a plain scalar -/
def plainRun (flow : Bool) (c : Cursor) : Option (List Char × Cursor) :=
  match _h : c.rest with
  | [] => some ([], c)
  | ch :: rest =>
    if isGap ch then some ([], c)
    else if badColon flow (ch :: rest) then none
    else if endsPlain flow (ch :: rest) then some ([], c)
    else (plainRun flow (c.advance rest)).map (fun r => (ch :: r.1, r.2))
termination_by c.rest.length
decreasing_by simp_all [Cursor.advance]

/-- a plain scalar: its text, the place after it, and whether a line end came last -/
def scanPlain (flow : Bool) (indent : Int) (done : List Char) (s : Spacing) (c : Cursor) :
    Option (List Char × Cursor × Bool) :=
  if documentMark c || c.head? == some '#' then some (done, c, s.broken)
  else
    match plainRun flow c with
    | none => none
    | some ([], c) => some (done, c, s.broken)
    | some (run, c₁) =>
      let done := done ++ s.fold ++ run
      if c₁.rest.isEmpty || !gapAhead c₁.rest then some (done, c₁, false)
      else
        match scanSpacing (some indent) {} c₁ with
        | none => none
        | some (s, c₂) =>
          if !flow && (c₂.column : Int) < indent then some (done, c₂, s.broken)
          else if _shorter : c₂.rest.length < c.rest.length then scanPlain flow indent done s c₂
          else none
termination_by c.rest.length

/-! ## Quoted scalars -/

/-- the character of an escape inside double quotes, and the rest -/
def unescape? : List Char → Option (Char × List Char)
  | [] => none
  | ch :: rest =>
    let plain (n : Nat) : Option (Char × List Char) := some (Char.ofNat n, rest)
    let coded (width : Nat) : Option (Char × List Char) := do
      let ds := rest.take width
      if ds.length < width then none else
        let n ← ds.foldlM (fun n d => (Json.hexValue? d).map (fun v => n * 16 + v)) 0
        if Nat.isValidChar n then some (Char.ofNat n, rest.drop width) else none
    match ch with
    | '0' => plain 0
    | 'a' => plain 7
    | 'b' => plain 8
    | 't' => plain 9
    | '\t' => plain 9
    | 'n' => plain 10
    | 'v' => plain 11
    | 'f' => plain 12
    | 'r' => plain 13
    | 'e' => plain 27
    | ' ' => plain 32
    | '"' => plain 34
    | '/' => plain 47
    | '\\' => plain 92
    | 'N' => plain 0x85
    | '_' => plain 0xA0
    | 'L' => plain 0x2028
    | 'P' => plain 0x2029
    | 'x' => coded 2
    | 'u' => coded 4
    | 'U' => coded 8
    | _ => none

/-- how a run of characters inside quotes ends -/
inductive RunEnd where
  | quote
  | gap
  /-- a backslash before a line end -/
  | escapedBreak

/-- characters without gaps inside quotes -/
def quotedRun (quote : Char) (c : Cursor) : Option (List Char × Cursor × RunEnd) :=
  match _h : c.rest with
  | [] => some ([], c, .gap)
  | ch :: rest =>
    if isGap ch then some ([], c, .gap)
    else if ch == '\'' && quote == '\'' && rest.head? == some '\'' then
      (quotedRun quote ((c.advance rest).advance (rest.drop 1))).map (fun r => ('\'' :: r.1, r.2))
    else if ch == quote then some ([], c.advance rest, .quote)
    else if ch == '\\' && quote == '"' then
      match lineBreak? rest with
      | some (_, after) => some ([], (c.advance rest).newline after, .escapedBreak)
      | none =>
        match unescape? rest with
        | none => none
        | some (e, after) =>
          if _shorter : after.length < c.rest.length then
            (quotedRun quote (c.skip (c.rest.length - after.length))).map (fun r => (e :: r.1, r.2))
          else none
    else (quotedRun quote (c.advance rest)).map (fun r => (ch :: r.1, r.2))
termination_by c.rest.length
decreasing_by
  all_goals simp_all [Cursor.advance, Cursor.skip]
  all_goals omega

/-- a quoted scalar after its opening quote -/
def scanQuoted (quote : Char) (done : List Char) (c : Cursor) : Option (List Char × Cursor) :=
  if documentMark c || c.rest.isEmpty then none
  else
    match quotedRun quote c with
    | none => none
    | some (run, c₁, .quote) => some (done ++ run, c₁)
    | some (run, c₁, ending) =>
      let escaped := match ending with
        | .escapedBreak => true
        | _ => false
      if escaped && c₁.head? == some quote then some (done ++ run, c₁.skip 1)
      else
        match scanSpacing none { broken := escaped } c₁ with
        | none => none
        | some (s, c₂) =>
          if _shorter : c₂.rest.length < c.rest.length then scanQuoted quote (done ++ run ++ s.fold) c₂
          else none
termination_by c.rest.length

/-! ## Blocks -/

/-- what happens to the line ends at the end of a block -/
inductive Chomping where
  | strip
  | clip
  | keep

/-- the signs after the opening of a block: chomping, indentation and the place after them -/
def blockHeader? (c : Cursor) : Option (Chomping × Option Nat × Cursor) :=
  let chomping? (c : Cursor) : Option (Chomping × Cursor) := match c.rest with
    | '+' :: rest => some (.keep, c.advance rest)
    | '-' :: rest => some (.strip, c.advance rest)
    | _ => none
  let digit? (c : Cursor) : Option (Nat × Cursor) := match c.rest with
    | d :: rest => if Text.isDigit d then some (d.toNat - '0'.toNat, c.advance rest) else none
    | [] => none
  let nonzero (n : Option Nat) (r : Chomping × Option Nat × Cursor) : Option (Chomping × Option Nat × Cursor) :=
    if n = some 0 then none else some r
  match chomping? c with
  | some (m, c) =>
    match digit? c with
    | some (n, c) => nonzero (some n) (m, some n, c)
    | none => some (m, none, c)
  | none =>
    match digit? c with
    | some (n, c) =>
      match chomping? c with
      | some (m, c) => nonzero (some n) (m, some n, c)
      | none => nonzero (some n) (.clip, some n, c)
    | none => some (.clip, none, c)

/-- empty lines and indentation: the line ends, the widest indentation met and the place after them; `none` at a tab in
the place of indentation -/
def blockBreaks (indent : Option Nat) (widest : Nat) (c : Cursor) : Option (List Char × Nat × Cursor) :=
  let spaces := (c.rest.takeWhile (· == ' ')).length
  let c₁ := match indent with
    | none => c.skip spaces
    | some i => c.skip (min spaces (i - c.column))
  let widest := max widest c₁.column
  if c₁.head? == some '\t' && indent.all (fun i => c₁.column < i) then none
  else
    match lineBreak? c₁.rest with
    | none => some ([], widest, c₁)
    | some (b, after) =>
      if _shorter : after.length < c.rest.length then
        (blockBreaks indent widest (c₁.newline after)).map (fun r => (b :: r.1, r.2))
      else none
termination_by c.rest.length
decreasing_by simp_all [Cursor.newline]

/-- the lines of a block, with the line end before the current one and the empty lines after that -/
def blockLines (literal : Bool) (indent : Nat) (done : List Char) (before : Option Char) (empty : List Char)
    (blankBefore : Bool) (c : Cursor) : Option (List Char × Option Char × List Char × Cursor) :=
  if c.column != indent || c.rest.isEmpty then some (done, before, empty, c)
  else
    let blankNow := c.head?.any isTabOrSpace
    let folded := !literal && before == some '\n' && !blankBefore && !blankNow
    let lead : List Char :=
      if folded then (if empty.isEmpty then [' '] else []) else before.toList
    let text := c.rest.takeWhile (fun ch => !isBreak ch)
    let c₁ := c.skipWhile (fun ch => !isBreak ch)
    let done := done ++ lead ++ empty ++ text
    let (before, c₂) := match lineBreak? c₁.rest with
      | some (b, after) => (some b, c₁.newline after)
      | none => (none, c₁)
    match blockBreaks (some indent) 0 c₂ with
    | none => none
    | some (empty, _, c₃) =>
      if _shorter : c₃.rest.length < c.rest.length then
        blockLines literal indent done before empty blankNow c₃
      else none
termination_by c.rest.length

/-- a block scalar after its sign, inside a block of some indentation -/
def scanBlock (literal : Bool) (parentIndent : Int) (c : Cursor) : Option (List Char × Cursor) := do
  let (chomping, increment, c) ← blockHeader? c
  let c := c.skipWhile isTabOrSpace
  let c := if c.head? == some '#' then c.skipWhile (fun ch => !isBreak ch) else c
  if c.rest.isEmpty || c.head?.any isBreak then
    let c := c.skipBreak
    let base := (max parentIndent 0).toNat
    let (empty, widest, c) ← blockBreaks (increment.map (base + ·)) 0 c
    let indent := match increment with
      | some n => base + n
      | none => max widest (max (parentIndent + 1).toNat 1)
    let (done, before, empty, c) ← blockLines literal indent [] none empty false c
    let tail := match chomping with
      | .strip => []
      | .clip => before.toList
      | .keep => before.toList ++ empty
    return (done ++ tail, c)
  else none

end RepoTutor.Yaml
