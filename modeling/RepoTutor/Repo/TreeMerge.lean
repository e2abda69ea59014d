/-
Three-way merge of trees, and the paths on which two trees differ.

A path that only one side changed takes that side's content, a path that both changed alike takes the common content,
and a path that both changed differently is a conflict. Absence counts as a content.
-/
import RepoTutor.Repo.State

namespace RepoTutor.Repo

/-- whether both sides changed a path, and differently -/
def isConflicting (base ours theirs : Tree) (p : Path) : Bool :=
  ours.get? p != theirs.get? p && theirs.get? p != base.get? p && ours.get? p != base.get? p

/-- what a path without conflict holds after the merge -/
def mergedEntry (base ours theirs : Tree) (p : Path) : Option BlobId :=
  if ours.get? p = theirs.get? p ∨ theirs.get? p = base.get? p then ours.get? p else theirs.get? p

/-- the merged tree, or the conflicting paths in ascending order -/
def mergeTrees (base ours theirs : Tree) : Except (List Path) Tree :=
  let paths := Table.ofKeys (base.keys ++ ours.keys ++ theirs.keys)
  match paths.keys.filter (isConflicting base ours theirs) with
  | [] => .ok (paths.filterMap (fun p _ => mergedEntry base ours theirs p))
  | conflicts => .error conflicts

/-- paths that two trees hold differently, in ascending order -/
def changedPaths (a b : Tree) : List Path :=
  (ascendingKeys (a.keys ++ b.keys)).filter (fun p => a.get? p != b.get? p)

end RepoTutor.Repo
