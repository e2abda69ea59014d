/-
Shapes of commits: what remains of a history when authors, times, messages and files are forgotten.

The shape of a commit is computed from the shapes of its parents in order and from nothing else, so two histories that
branch and merge alike have equal shapes whatever was committed.
-/
import RepoTutor.Repo.Graph

namespace RepoTutor.Grading

open Repo

/-- give a commit its shape as soon as all its parents have theirs -/
def settle (shapes : Table String) (e : CommitId × Commit) : Table String :=
  if shapes.contains e.1 then shapes
  else
    match e.2.parents.mapM shapes.get? with
    | some parents => shapes.insert e.1 (shapeId parents)
    | none => shapes

/-- one pass over all commits -/
def settleAll (r : Repository) (shapes : Table String) : Table String := r.commits.entries.foldl settle shapes

/-- a number of passes, fewer when one changes nothing -/
def settleRounds (r : Repository) : Nat → Table String → Table String
  | 0, shapes => shapes
  | n + 1, shapes =>
    let next := settleAll r shapes
    if next.size = shapes.size then shapes else settleRounds r n next

/-- shape of every commit; a history is no deeper than the number of its commits -/
def commitShapes (r : Repository) : Table String := settleRounds r r.commits.size .empty

/-- shapes of all commits that are kept, sorted -/
def dagSignature (r : Repository) (shapes : Table String) : List String :=
  (r.reachable.filterMap shapes.get?).mergeSort (fun a b => decide (a ≤ b))

/-- how many of the commits that are kept are merges -/
def mergeCount (r : Repository) : Nat :=
  ((r.reachable.filterMap r.commits.get?).filter Commit.isMerge).length

/-- a history in a few words -/
def describe (r : Repository) : String :=
  let commits := match r.reachable.length with
    | 1 => "1 commit"
    | n => Text.natText n ++ " commits"
  let merges := match mergeCount r with
    | 0 => ""
    | 1 => ", 1 merge"
    | n => ", " ++ Text.natText n ++ " merges"
  if r.branches.isEmpty then commits ++ merges ++ ", no branches"
  else commits ++ merges ++ ", branches: " ++ Text.joinWith ", " r.branches.keys

end RepoTutor.Grading
