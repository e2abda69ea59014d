/-
The value of a YAML text.

Aliases stand for the node at their anchor. How deep values nest and how often aliases are followed is bounded, so a
short text cannot denote a huge value. A mapping that repeats a key has no value.
-/
import RepoTutor.Yaml.Node
import RepoTutor.Yaml.PlainScalar

namespace RepoTutor.Yaml

/-- how deep sequences and mappings may nest -/
def maxDepth : Nat := 128

/-- how often aliases may be followed for each node mark of the text -/
def maxJumpsPerMark : Nat := 100

namespace Node

mutual

/-- marks of a text: scalars and aliases count once, collections at both ends -/
def marks : Node → Nat
  | reference _ => 1
  | scalar _ _ _ _ => 1
  | seq _ _ items => 2 + marksOfItems items
  | map _ _ entries => 2 + marksOfEntries entries

def marksOfItems : List Node → Nat
  | [] => 0
  | n :: rest => marks n + marksOfItems rest

def marksOfEntries : List (Node × Node) → Nat
  | [] => 0
  | (k, v) :: rest => marks k + marks v + marksOfEntries rest

end

mutual

/-- nodes with an anchor, in the order of the text -/
def anchored : Node → List (Nat × Node)
  | reference _ => []
  | scalar anchor tag plain text => anchor.toList.map (fun a => (a, scalar anchor tag plain text))
  | seq anchor tag items => anchor.toList.map (fun a => (a, seq anchor tag items)) ++ anchoredItems items
  | map anchor tag entries => anchor.toList.map (fun a => (a, map anchor tag entries)) ++ anchoredEntries entries

def anchoredItems : List Node → List (Nat × Node)
  | [] => []
  | n :: rest => anchored n ++ anchoredItems rest

def anchoredEntries : List (Node × Node) → List (Nat × Node)
  | [] => []
  | (k, v) :: rest => anchored k ++ anchored v ++ anchoredEntries rest

end

end Node

/-! ## Values of nodes -/

/-- whether no key occurs twice -/
def distinctKeys : List (Value × Value) → Bool
  | [] => true
  | (k, _) :: rest => rest.all (fun e => !Value.same k e.1) && distinctKeys rest

/-- a value under its tag: tags of the text's own start with a mark and need a name, all others are dropped -/
def underTag? (tag : Option String) (v : Value) : Option Value :=
  match tag.map String.toList with
  | some ['!'] => none
  | some ('!' :: name) => some (.tagged (String.ofList name) v)
  | _ => some v

/-- the value of a scalar -/
def scalarValue? (tag : Option String) (plain : Bool) (s : String) : Option Value :=
  match tag with
  | some t =>
    if t.toList.head? == some '!' then (if plain then plainValue? s else some (.str s)).bind (underTag? tag)
    else taggedValue? t s
  | none => if plain then plainValue? s else some (.str s)

/-- a reading with a count of the aliases followed so far -/
abbrev Reading := StateT Nat Option

/-- the node that a node stands for, among the anchored nodes with the last one first -/
def follow (targets : List (Nat × Node)) (limit : Nat) : Node → Reading Node
  | .reference number => do
    let jumps ← get
    if limit ≤ jumps then failure
    else
      set (jumps + 1)
      match targets.find? (fun t => t.1 == number) with
      | some t => return t.2
      | none => failure
  | n => return n

/-- the value of a node with so many levels left -/
def nodeValue (targets : List (Nat × Node)) (limit : Nat) : Nat → Node → Reading Value
  | 0, n => do
    match ← follow targets limit n with
    | .scalar _ tag plain text => StateT.lift (scalarValue? tag plain text)
    | _ => failure
  | depth + 1, n => do
    match ← follow targets limit n with
    | .scalar _ tag plain text => StateT.lift (scalarValue? tag plain text)
    | .seq _ tag items =>
      let vs ← items.mapM (nodeValue targets limit depth)
      StateT.lift (underTag? tag (.seq vs))
    | .map _ tag entries =>
      let es ← entries.mapM (fun e => do
        let k ← nodeValue targets limit depth e.1
        let v ← nodeValue targets limit depth e.2
        return (k, v))
      if distinctKeys es then StateT.lift (underTag? tag (.map es)) else failure
    | .reference _ => failure

/-- the value of a text with at most one document; a text without one is null -/
def Value.ofText? (text : String) : Option Value := do
  let n ← Node.ofTokens? (← tokens? text)
  let (v, _) ← nodeValue n.anchored.reverse (maxJumpsPerMark * n.marks) maxDepth n 0
  return v

end RepoTutor.Yaml
