/-
Revisions: texts that name a commit.

A revision is a base followed by suffixes. The base is HEAD (or `@`), a branch, or at least four hexadecimal digits that
begin exactly one commit's identifier; `~n` goes to the n-th first parent and `^n` to the n-th parent, where a missing
number means one and `^0` stays.
-/
import RepoTutor.Numeric.Word
import RepoTutor.Repo.State

namespace RepoTutor.Repo

namespace Repository

/-- commits whose identifiers begin with these characters: a run of the ascending identifiers, which starts at the first
one that does not come before the characters -/
def idsWithPrefix (r : Repository) (digits : List Char) : List CommitId :=
  (r.commits.keys.dropWhile (fun id => id < String.ofList digits)).takeWhile (fun id => digits.isPrefixOf id.toList)

/-- the only commit whose identifier begins with the digits, in either case -/
def abbreviated? (r : Repository) (base : List Char) : Option CommitId :=
  if base.length < 4 || !base.all Text.isHexDigit then none
  else
    match r.idsWithPrefix (base.map Text.latinLower) with
    | [id] => some id
    | _ => none

/-- the commit that a base denotes -/
def resolveBase (r : Repository) (base : List Char) : Option CommitId :=
  let name := String.ofList base
  if name = "HEAD" ∨ name = "@" then r.headId
  else
    match r.branches.get? name with
    | some id => some id
    | none => r.abbreviated? base

/-- the first parent of the first parent and so on, `n` times -/
def firstParents (r : Repository) : Nat → CommitId → Option CommitId
  | 0, id => if r.commits.contains id then some id else none
  | n + 1, id => do
    let c ← r.commits.get? id
    let p ← c.parents.head?
    firstParents r n p

/-- one step of a suffix -/
inductive Step where
  | ancestor (n : Nat)
  | parent (n : Nat)
  deriving DecidableEq, Repr

/-- the commit that one step leads to -/
def follow (r : Repository) (id : CommitId) : Step → Option CommitId
  | .ancestor n => r.firstParents n id
  | .parent 0 => if r.commits.contains id then some id else none
  | .parent (n + 1) => do
    let c ← r.commits.get? id
    c.parents[n]?

end Repository

/-- digits at the front as a number below 2^64; one when there are none -/
def stepCount? (cs : List Char) : Option Nat :=
  let ds := cs.takeWhile Text.isDigit
  if ds.isEmpty then some 1
  else
    let n := Text.digitsValue ds
    if n < wordCount 64 then some n else none

/-- the steps of a suffix -/
def parseSteps? : List Char → Option (List Repository.Step)
  | [] => some []
  | op :: rest => do
    let n ← stepCount? rest
    let after := rest.dropWhile Text.isDigit
    if op = '~' then (parseSteps? after).map (.ancestor n :: ·)
    else if op = '^' then (parseSteps? after).map (.parent n :: ·)
    else none
termination_by cs => cs.length
decreasing_by
  all_goals exact Nat.lt_succ_of_le (List.dropWhile_sublist Text.isDigit).length_le

/-- whether a character begins a suffix -/
def isStepMark (c : Char) : Bool := c == '~' || c == '^'

namespace Repository

/-- the commit that a revision names -/
def resolve (r : Repository) (rev : String) : Option CommitId := do
  let cs := rev.toList
  let start ← r.resolveBase (cs.takeWhile (fun c => !isStepMark c))
  let steps ← parseSteps? (cs.dropWhile (fun c => !isStepMark c))
  steps.foldlM r.follow start

end Repository

end RepoTutor.Repo
