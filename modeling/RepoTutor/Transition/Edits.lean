/-
Pending edits and how they follow HEAD.

An edit is dropped as soon as it equals what HEAD holds, and HEAD may move only where no pending edit sits on a path
that the move would change.
-/
import RepoTutor.Repo.TreeMerge
import RepoTutor.Transition.Error

namespace RepoTutor.Transition

open Repo

/-- what an operation comes to: a value or the reason why it is refused -/
abbrev Refusable (α : Type) := Except TransitionError α

end RepoTutor.Transition

namespace RepoTutor.Repo.Repository

open Transition

/-- record the content of a path; an edit equal to the committed content is dropped -/
def setEdit (r : Repository) (path : Path) (content : Option String) (staged : Bool) : Repository :=
  if r.committedContent path = content then { r with edits := r.edits.erase path }
  else { r with edits := r.edits.insert path ⟨content, staged⟩ }

/-- drop the edits that equal what HEAD holds -/
def settleEdits (r : Repository) : Repository :=
  { r with edits := r.edits.filter (fun path e => r.committedContent path != e.content) }

/-- stage or unstage the edits of some paths -/
def markStaged (r : Repository) (staged : Bool) (which : Path → Bool) : Repository :=
  { r with edits := r.edits.map (fun path e => if which path then { e with staged := staged } else e) }

/-- drop the staged edits -/
def dropStaged (r : Repository) : Repository := { r with edits := r.edits.filter (fun _ e => !e.staged) }

/-- store a content under its identifier -/
def storeBlob (r : Repository) (content : String) : Repository :=
  if r.blobs.contains (blobId content) then r else { r with blobs := r.blobs.insert (blobId content) content }

/-- staged edits in ascending order of their paths -/
def stagedEdits (r : Repository) : List (Path × Option String) :=
  (r.edits.entries.filter (fun e => e.2.staged)).map (fun e => (e.1, e.2.content))

/-- one staged edit in a tree -/
def stageInTree (tree : Tree) (e : Path × Option String) : Tree :=
  match e.2 with
  | some content => tree.insert e.1 (blobId content)
  | none => tree.erase e.1

/-- a tree with the staged edits in it -/
def stagedTree (r : Repository) (tree : Tree) : Tree := r.stagedEdits.foldl stageInTree tree

/-- the repository with the contents of all staged edits stored -/
def storeStaged (r : Repository) : Repository := (r.stagedEdits.filterMap (·.2)).foldl storeBlob r

/-- pending edits on paths that HEAD's files and a target hold differently -/
def overwritten (r : Repository) (target : Tree) : List Path :=
  r.edits.keys.filter (fun p => r.headTree.get? p != target.get? p)

/-- refuse to move HEAD over a pending edit -/
def checkOverwrite (r : Repository) (target : Tree) : Refusable Unit :=
  match r.overwritten target with
  | [] => .ok ()
  | paths => .error (.localChangesWouldBeOverwritten paths)

/-- let HEAD's branch, or a detached HEAD itself, stand for another commit -/
def moveHead (r : Repository) (id : CommitId) : Repository :=
  match r.head with
  | .attached name => { r with branches := r.branches.insert name id }
  | .detached _ => { r with head := .detached id }

end RepoTutor.Repo.Repository
