/-
The tree of a YAML text.

Scalars keep their text and style, and aliases the number of their anchor. `Node.ofTokens?` reads one document; a text
with more than one has no tree. The readers call each other, so each takes a bound on the calls that are left; the
number of tokens gives one that is never reached.
-/
import RepoTutor.Yaml.Token

namespace RepoTutor.Yaml

inductive Node where
  | reference (number : Nat)
  | scalar (anchor : Option Nat) (tag : Option String) (plain : Bool) (text : String)
  | seq (anchor : Option Nat) (tag : Option String) (items : List Node)
  | map (anchor : Option Nat) (tag : Option String) (entries : List (Node × Node))

namespace Node

/-- a scalar that was left out -/
def absent : Node := scalar none none true ""

/-! ## Documents -/

/-- what the directives of a document say -/
structure Preamble where
  versioned : Bool := false
  handles : List (List Char × List Char) := []

/-- handles that need no directive -/
def standardHandles : List (List Char × List Char) :=
  [("!".toList, "!".toList), ("!!".toList, "tag:yaml.org,2002:".toList)]

/-- directives in front of a document; versions 1.1 and 1.2 are known, and a directive may not occur twice -/
def preamble? : Preamble → List Token → Option (Preamble × List Token)
  | p, .directive (.version major minor) :: rest =>
    if p.versioned || major != 1 || (minor != 1 && minor != 2) then none
    else preamble? { p with versioned := true } rest
  | p, .directive (.handle name replacement) :: rest =>
    if p.handles.any (fun h => h.1 == name) then none
    else preamble? { p with handles := p.handles ++ [(name, replacement)] } rest
  | p, rest => some (p, rest)

/-- a tag in full -/
def fullTag? (handles : List (List Char × List Char)) (handle suffix : List Char) : Option String :=
  if handle.isEmpty then some (String.ofList suffix)
  else ((handles ++ standardHandles).find? (fun h => h.1 == handle)).map (fun h => String.ofList (h.2 ++ suffix))

/-! ## Properties -/

/-- numbers of anchors by name; a new anchor takes the number of names known before it -/
abbrev Anchors := List (List Char × Nat)

def Anchors.add (a : Anchors) (name : List Char) : Anchors × Nat :=
  ((name, a.length) :: a.filter (fun e => e.1 != name), a.length)

def Anchors.number? (a : Anchors) (name : List Char) : Option Nat := (a.find? (fun e => e.1 == name)).map (·.2)

/-- an anchor and a tag in front of a node -/
structure Properties where
  anchor : Option (List Char) := none
  tag : Option (List Char × List Char) := none

/-- the properties in front of a node, in either order -/
def properties : List Token → Properties × List Token
  | .anchor a :: .tag h s :: rest => (⟨some a, some (h, s)⟩, rest)
  | .tag h s :: .anchor a :: rest => (⟨some a, some (h, s)⟩, rest)
  | .anchor a :: rest => (⟨some a, none⟩, rest)
  | .tag h s :: rest => (⟨none, some (h, s)⟩, rest)
  | rest => ({}, rest)

/-! ## Readers -/

/-- what follows a reading: the anchors known then, and the tokens after it -/
abbrev Ahead := Anchors × List Token

/-- whether the place of a node in a block is left empty -/
def endsBlockItem (indentless : Bool) : List Token → Bool
  | .key :: _ => indentless
  | .value :: _ => indentless
  | .blockEntry :: _ => true
  | .blockEnd :: _ => true
  | _ => false

/-- whether the place of a key or a value in a block is left empty -/
def endsBlockEntry : List Token → Bool
  | .key :: _ => true
  | .value :: _ => true
  | .blockEnd :: _ => true
  | _ => false

mutual

/-- a node; blocks open only where `block` holds, a sequence at the indentation of its key where `indentless` does -/
def read (handles : List (List Char × List Char)) : Nat → Bool → Bool → Anchors → List Token → Option (Node × Ahead)
  | 0, _, _, _, _ => none
  | _ + 1, _, _, names, .reference name :: rest => (names.number? name).map (fun n => (reference n, names, rest))
  | fuel + 1, block, indentless, names, ts => do
    let (p, rest) := properties ts
    let tag ← match p.tag with
      | none => some none
      | some (handle, suffix) => (fullTag? handles handle suffix).map some
    let (names, anchor) := match p.anchor with
      | none => (names, none)
      | some name => ((names.add name).1, some (names.add name).2)
    match rest with
    | .blockEntry :: _ =>
      if indentless then
        let (items, names, rest) ← readItems handles fuel true names rest
        return (seq anchor tag items, names, rest)
      else if anchor.isSome || tag.isSome then return (scalar anchor tag true "", names, rest)
      else none
    | .scalar plain text :: rest =>
      if tag == some "!" then return (scalar anchor none plain (String.ofList text), names, rest)
      else return (scalar anchor tag plain (String.ofList text), names, rest)
    | .flowSequenceStart :: rest =>
      let (items, names, rest) ← readFlowItems handles fuel true names rest
      return (seq anchor tag items, names, rest)
    | .flowMappingStart :: rest =>
      let (entries, names, rest) ← readFlowEntries handles fuel true names rest
      return (map anchor tag entries, names, rest)
    | _ =>
      match block, rest with
      | true, .blockSequenceStart :: rest =>
        let (items, names, rest) ← readItems handles fuel false names rest
        return (seq anchor tag items, names, rest)
      | true, .blockMappingStart :: rest =>
        let (entries, names, rest) ← readEntries handles fuel names rest
        return (map anchor tag entries, names, rest)
      | _, _ =>
        if anchor.isSome || tag.isSome then return (scalar anchor tag true "", names, rest) else none

/-- the items of a block sequence; an indentless one ends at the first token that is no entry -/
def readItems (handles : List (List Char × List Char)) : Nat → Bool → Anchors → List Token → Option (List Node × Ahead)
  | 0, _, _, _ => none
  | fuel + 1, indentless, names, .blockEntry :: ts => do
    let (item, names, rest) ←
      if endsBlockItem indentless ts then some (absent, names, ts) else read handles fuel true false names ts
    let (items, names, rest) ← readItems handles fuel indentless names rest
    return (item :: items, names, rest)
  | _ + 1, true, names, ts => some ([], names, ts)
  | _ + 1, false, names, .blockEnd :: ts => some ([], names, ts)
  | _ + 1, false, _, _ => none

/-- a key or a value of a block mapping -/
def readPart (handles : List (List Char × List Char)) : Nat → Anchors → List Token → Option (Node × Ahead)
  | 0, _, _ => none
  | fuel + 1, names, ts => if endsBlockEntry ts then some (absent, names, ts) else read handles fuel true true names ts

/-- the entries of a block mapping -/
def readEntries (handles : List (List Char × List Char)) : Nat → Anchors → List Token →
    Option (List (Node × Node) × Ahead)
  | 0, _, _ => none
  | _ + 1, names, .blockEnd :: ts => some ([], names, ts)
  | fuel + 1, names, ts => do
    let (k, names, rest) ← match ts with
      | .key :: ts => readPart handles fuel names ts
      | .value :: _ => none
      | _ => none
    let (v, names, rest) ← match rest with
      | .value :: ts => readPart handles fuel names ts
      | _ => some (absent, names, rest)
    let (entries, names, rest) ← readEntries handles fuel names rest
    return ((k, v) :: entries, names, rest)

/-- the items of a sequence in brackets; an item may be a mapping of a single pair -/
def readFlowItems (handles : List (List Char × List Char)) : Nat → Bool → Anchors → List Token →
    Option (List Node × Ahead)
  | 0, _, _, _ => none
  | _ + 1, _, names, .flowSequenceEnd :: ts => some ([], names, ts)
  | fuel + 1, first, names, ts => do
    let ts ← match first, ts with
      | true, ts => some ts
      | false, .flowEntry :: ts => some ts
      | false, _ => none
    match ts with
    | .flowSequenceEnd :: rest => return ([], names, rest)
    | .key :: ts =>
      let (k, names, rest) ← match ts with
        | .value :: rest => some (absent, names, rest)
        | .flowEntry :: rest => some (absent, names, rest)
        | .flowSequenceEnd :: rest => some (absent, names, rest)
        | _ => read handles fuel false false names ts
      let (v, names, rest) ← match rest with
        | .value :: .flowEntry :: rest => some (absent, names, .flowEntry :: rest)
        | .value :: .flowSequenceEnd :: rest => some (absent, names, .flowSequenceEnd :: rest)
        | .value :: rest => read handles fuel false false names rest
        | _ => some (absent, names, rest)
      let (items, names, rest) ← readFlowItems handles fuel false names rest
      return (map none none [(k, v)] :: items, names, rest)
    | _ =>
      let (item, names, rest) ← read handles fuel false false names ts
      let (items, names, rest) ← readFlowItems handles fuel false names rest
      return (item :: items, names, rest)

/-- the entries of a mapping in braces -/
def readFlowEntries (handles : List (List Char × List Char)) : Nat → Bool → Anchors → List Token →
    Option (List (Node × Node) × Ahead)
  | 0, _, _, _ => none
  | _ + 1, _, names, .flowMappingEnd :: ts => some ([], names, ts)
  | fuel + 1, first, names, ts => do
    let ts ← match first, ts with
      | true, ts => some ts
      | false, .flowEntry :: ts => some ts
      | false, _ => none
    match ts with
    | .flowMappingEnd :: rest => return ([], names, rest)
    | .key :: ts =>
      let (k, names, rest) ← match ts with
        | .value :: _ => some (absent, names, ts)
        | .flowEntry :: _ => some (absent, names, ts)
        | .flowMappingEnd :: _ => some (absent, names, ts)
        | _ => read handles fuel false false names ts
      let (v, names, rest) ← match rest with
        | .value :: .flowEntry :: rest => some (absent, names, .flowEntry :: rest)
        | .value :: .flowMappingEnd :: rest => some (absent, names, .flowMappingEnd :: rest)
        | .value :: rest => read handles fuel false false names rest
        | _ => some (absent, names, rest)
      let (entries, names, rest) ← readFlowEntries handles fuel false names rest
      return ((k, v) :: entries, names, rest)
    | _ =>
      let (k, names, rest) ← read handles fuel false false names ts
      let (entries, names, rest) ← readFlowEntries handles fuel false names rest
      return ((k, absent) :: entries, names, rest)

end

/-- the content of a document -/
def readContent (handles : List (List Char × List Char)) (ts : List Token) : Option (Node × List Token) :=
  (read handles (4 * ts.length + 4) true false [] ts).map (fun r => (r.1, r.2.2))

/-- a document that starts with its marker; it may have no content -/
def readMarked (ts : List Token) : Option (Node × List Token) := do
  let (p, rest) ← preamble? {} ts
  match rest with
  | .documentStart :: rest =>
    match rest with
    | [] => return (absent, rest)
    | .directive _ :: _ => return (absent, rest)
    | .documentStart :: _ => return (absent, rest)
    | .documentEnd :: _ => return (absent, rest)
    | _ => readContent p.handles rest
  | _ => none

/-- whether nothing but ends of documents is left -/
def onlyEnds (ts : List Token) : Bool :=
  ts.all (fun t => match t with
    | .documentEnd => true
    | _ => false)

/-- the only document among some tokens -/
def ofTokens? (ts : List Token) : Option Node := do
  let (n, rest) ← match ts with
    | [] => some (absent, [])
    | .directive _ :: _ => readMarked ts
    | .documentStart :: _ => readMarked ts
    | _ => readContent [] ts
  if onlyEnds rest then return n else none

end Node

end RepoTutor.Yaml
