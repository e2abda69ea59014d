/-
Bodies of requests: JSON objects whose named fields are texts.

A body is read from its front, and the first fault decides whether it is malformed or of the wrong shape. Unknown fields
are skipped. An array of the fields in their order is read too.
-/
import RepoTutor.Json.Parser

namespace RepoTutor.Http

open Json

inductive BodyError where
  /-- not JSON -/
  | malformed
  /-- JSON of another shape -/
  | mismatch
  deriving DecidableEq, Repr

/-- what was read, or that the text is malformed -/
def wellFormed {α : Type} (r : Except Stop α) : Except BodyError α := r.mapError (fun _ => .malformed)

/-- the text at the front -/
def fieldText (cs : List Char) : Except BodyError (String × List Char) :=
  match cs with
  | '"' :: rest => wellFormed ((stringBody rest).map (fun r => (String.ofList r.1, r.2)))
  | '[' :: _ => .error .mismatch
  | '\x7b' :: _ => .error .mismatch
  | _ => (wellFormed (scalar cs)).bind (fun _ => .error .mismatch)

/-- a key and, if it is a known field, its text; and the rest -/
def member (names : List String) (known : List (String × String)) (cs : List Char) :
    Except BodyError (List (String × String) × List Char) :=
  match cs with
  | '"' :: rest => do
    let (k, rest) ← wellFormed (stringBody rest)
    let key := String.ofList k
    if !names.contains key then
      let (_, rest) ← wellFormed (value maxDepth (← wellFormed (colon rest)))
      return (known, rest)
    else if known.any (fun f => f.1 == key) then throw .mismatch
    else
      let (s, rest) ← fieldText (← wellFormed (colon rest))
      return (known ++ [(key, s)], rest)
  | _ => .error .malformed

/-- the members of an object after the first, and what follows its brace -/
def moreMembers (names : List String) (known : List (String × String)) (cs : List Char) :
    Except BodyError (List (String × String) × List Char) :=
  match skipSpace cs with
  | '\x7d' :: rest => .ok (known, rest)
  | ',' :: rest =>
    match member names known (skipSpace rest) with
    | .error e => .error e
    | .ok (known, rest) =>
      if _shorter : rest.length < cs.length then moreMembers names known rest else .error .malformed
  | _ => .error .malformed
termination_by cs.length

/-- the fields of an object after its brace -/
def objectFields (names : List String) (cs : List Char) : Except BodyError (List (String × String) × List Char) := do
  let (known, rest) ← match skipSpace cs with
    | '\x7d' :: rest => .ok ([], rest)
    | cs => do
      let (known, rest) ← member names [] cs
      moreMembers names known rest
  if names.all (fun n => known.any (fun f => f.1 == n)) then return (known, rest) else throw .mismatch

/-- the fields of an array, each after what separates it from the one before -/
def listedFields : Bool → List String → List Char → Except BodyError (List (String × String) × List Char)
  | _, [], cs =>
    match skipSpace cs with
    | ']' :: rest => .ok ([], rest)
    | _ => .error .malformed
  | first, name :: names, cs =>
    match first, skipSpace cs with
    | _, ']' :: _ => .error .mismatch
    | true, cs => do
      let (s, rest) ← fieldText cs
      let (fields, rest) ← listedFields false names rest
      return ((name, s) :: fields, rest)
    | false, ',' :: cs => do
      let (s, rest) ← fieldText (skipSpace cs)
      let (fields, rest) ← listedFields false names rest
      return ((name, s) :: fields, rest)
    | false, _ => .error .malformed

/-- the named fields of a body -/
def bodyFields (names : List String) (body : String) : Except BodyError (List (String × String)) := do
  let (fields, rest) ← match skipSpace body.toList with
    | '\x7b' :: rest => objectFields names rest
    | '[' :: rest => listedFields true names rest
    | cs => (fieldText cs).bind (fun _ => .error .mismatch)
  if (skipSpace rest).isEmpty then return fields else throw .malformed

end RepoTutor.Http
