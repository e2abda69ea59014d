/-
The texts of anchors, tags and directives.

A tag is written as a handle and a suffix: `!suffix`, `!handle!suffix`, or `!<suffix>` without a handle. A suffix may
hold escaped characters: a percent sign and two hexadecimal digits for each byte of the character.
-/
import RepoTutor.Json.Parser
import RepoTutor.Yaml.Cursor

namespace RepoTutor.Yaml

/-! ## Tags -/

/-- characters of a tag besides those of a name -/
def tagSigns : List Char := ";/?:@&=+$.!~*'()".toList

/-- whether a character may stand in a tag; between angle brackets more may -/
def isTagChar (bracketed : Bool) (c : Char) : Bool :=
  isNameChar c || tagSigns.contains c || (bracketed && (c == ',' || c == '[' || c == ']'))

/-- one escaped byte -/
def escapedByte? : List Char → Option (Nat × List Char)
  | '%' :: a :: b :: rest => do
    let high ← Json.hexValue? a
    let low ← Json.hexValue? b
    return (high * 16 + low, rest)
  | _ => none

/-- the six bits of each of `n` escaped bytes that continue a character, added to what came before -/
def continuation? : Nat → Nat → List Char → Option (Nat × List Char)
  | 0, code, cs => some (code, cs)
  | n + 1, code, cs => do
    let (byte, rest) ← escapedByte? cs
    if byte / 64 = 2 then continuation? n (code * 64 + byte % 64) rest else none

/-- the number of a character written as escaped bytes -/
def escapedCode? (cs : List Char) : Option (Nat × List Char) := do
  let (byte, rest) ← escapedByte? cs
  if byte < 0x80 then some (byte, rest)
  else if byte / 32 = 6 then continuation? 1 (byte % 32) rest
  else if byte / 16 = 14 then continuation? 2 (byte % 16) rest
  else if byte / 8 = 30 then continuation? 3 (byte % 8) rest
  else none

/-- the characters of a tag's suffix, and the rest -/
def tagSuffix? (bracketed : Bool) (cs : List Char) : Option (List Char × List Char) :=
  match _h : cs with
  | [] => some ([], [])
  | '%' :: rest =>
    match escapedCode? ('%' :: rest) with
    | none => none
    | some (code, after) =>
      if _shorter : after.length < cs.length then
        if code.isValidChar then (tagSuffix? bracketed after).map (fun r => (Char.ofNat code :: r.1, r.2)) else none
      else none
  | c :: rest =>
    if isTagChar bracketed c then (tagSuffix? bracketed rest).map (fun r => (c :: r.1, r.2)) else some ([], c :: rest)
termination_by cs.length
decreasing_by all_goals simp_all

/-- a handle: an exclamation mark, and more only if another mark closes it; whether it is closed, and the rest -/
def tagHandle? : List Char → Option (List Char × Bool × List Char)
  | '!' :: rest =>
    let name := rest.takeWhile isNameChar
    match rest.dropWhile isNameChar with
    | '!' :: after => some ('!' :: name ++ ['!'], true, after)
    | after => some ('!' :: name, false, after)
  | _ => none

/-- a tag as written: its handle, its suffix and the rest -/
def tagText? (cs : List Char) : Option (List Char × List Char × List Char) :=
  match cs with
  | '!' :: '<' :: rest =>
    match tagSuffix? true rest with
    | some (c :: suffix, '>' :: after) => some ([], c :: suffix, after)
    | _ => none
  | _ =>
    match tagHandle? cs with
    | none => none
    | some (handle, true, rest) =>
      match tagSuffix? false rest with
      | some (c :: suffix, after) => some (handle, c :: suffix, after)
      | _ => none
    | some (handle, false, rest) =>
      match tagSuffix? false rest with
      | some (suffix, after) =>
        match handle.drop 1 ++ suffix with
        | [] => some ([], ['!'], after)
        | whole => some (['!'], whole, after)
      | none => none

/-! ## Anchors -/

/-- the name of an anchor or alias, and the rest -/
def anchorName? (cs : List Char) : Option (List Char × List Char) :=
  let name := cs.takeWhile isNameChar
  let rest := cs.dropWhile isNameChar
  let closed := gapAhead rest || rest.head?.any (fun c => "?:,]%@\x7d\x60".toList.contains c)
  if name.isEmpty || !closed then none else some (name, rest)

/-! ## Directives -/

inductive Directive where
  | version (major minor : Nat)
  | handle (name replacement : List Char)

/-- a number of at most nine digits -/
def versionNumber? (cs : List Char) : Option (Nat × List Char) :=
  let ds := cs.takeWhile Text.isDigit
  if ds.isEmpty || 9 < ds.length then none else some (Text.digitsValue ds, cs.dropWhile Text.isDigit)

/-- a directive after its percent sign, and the rest of the line -/
def directive? (cs : List Char) : Option (Directive × List Char) :=
  let name := String.ofList (cs.takeWhile isNameChar)
  let rest := cs.dropWhile isNameChar
  let content := rest.dropWhile isTabOrSpace
  if !gapAhead rest then none
  else if name = "YAML" then do
    let (major, rest) ← versionNumber? content
    match rest with
    | '.' :: rest =>
      let (minor, rest) ← versionNumber? rest
      return (.version major minor, rest)
    | _ => none
  else if name = "TAG" then do
    let (handle, closed, rest) ← tagHandle? content
    if !closed && handle.length != 1 then none
    else if !rest.head?.any isTabOrSpace then none
    else
      let (replacement, rest) ← tagSuffix? true (rest.dropWhile isTabOrSpace)
      if replacement.isEmpty || !gapAhead rest then none else some (.handle handle replacement, rest)
  else none

end RepoTutor.Yaml
