/-
What makes a repository well-formed, and a check that names the first violation.

Every content and every commit is stored under the identifier computed from it, a commit has at most two parents and
refers only to commits and contents of the repository, branches, a detached HEAD and a pending merge point at commits of
it, and no commit is its own ancestor. Tables are checked in ascending order of their keys.
-/
import RepoTutor.Repo.Graph

namespace RepoTutor.Repo

inductive Violation where
  | danglingBranch (branch : BranchName) (commit : CommitId)
  | danglingHead (commit : CommitId)
  | danglingMergeHead (commit : CommitId)
  | missingParent (commit parent : CommitId)
  | tooManyParents (commit : CommitId) (count : Nat)
  | missingBlob (commit : CommitId) (path : Path) (blob : BlobId)
  | commitIdMismatch (key computed : CommitId)
  | blobIdMismatch (key computed : BlobId)
  | cycle (commit : CommitId)
  deriving DecidableEq, Repr

namespace Violation

/-- short name of the cause -/
def code : Violation → String
  | danglingBranch _ _ => "dangling_branch"
  | danglingHead _ => "dangling_head"
  | danglingMergeHead _ => "dangling_merge_head"
  | missingParent _ _ => "missing_parent"
  | tooManyParents _ _ => "too_many_parents"
  | missingBlob _ _ _ => "missing_blob"
  | commitIdMismatch _ _ => "commit_id_mismatch"
  | blobIdMismatch _ _ => "blob_id_mismatch"
  | cycle _ => "cycle"

def message : Violation → String
  | danglingBranch branch commit => "branch '" ++ branch ++ "' points at missing commit " ++ commit
  | danglingHead commit => "HEAD points at missing commit " ++ commit
  | danglingMergeHead commit => "merge head points at missing commit " ++ commit
  | missingParent commit parent => "commit " ++ commit ++ " references missing parent " ++ parent
  | tooManyParents commit count =>
    "commit " ++ commit ++ " has " ++ Text.natText count ++ " parents (at most 2 allowed)"
  | missingBlob commit path blob =>
    "commit " ++ commit ++ " tree entry '" ++ path ++ "' references missing blob " ++ blob
  | commitIdMismatch key computed => "commit stored under " ++ key ++ " hashes to " ++ computed
  | blobIdMismatch key computed => "blob stored under " ++ key ++ " hashes to " ++ computed
  | cycle commit => "commit graph has a cycle through " ++ commit

end Violation

/-- a check: nothing, or what it found -/
abbrev Check := Except Violation Unit

/-- check every item in turn -/
def checkEach {α : Type} (f : α → Check) : List α → Check
  | [] => .ok ()
  | a :: rest => do
    f a
    checkEach f rest

def require (holds : Bool) (v : Violation) : Check := if holds then .ok () else .error v

namespace Repository

def checkBlob (e : BlobId × String) : Check :=
  require (e.1 = blobId e.2) (.blobIdMismatch e.1 (blobId e.2))

def checkCommit (r : Repository) (e : CommitId × Commit) : Check := do
  let (key, c) := e
  let computed := c.computedId
  require (key = c.id && computed = c.id) (.commitIdMismatch key computed)
  require (c.parents.length ≤ 2) (.tooManyParents key c.parents.length)
  checkEach (fun p => require (r.commits.contains p) (.missingParent key p)) c.parents
  checkEach (fun f => require (r.blobs.contains f.2) (.missingBlob key f.1 f.2)) c.tree.entries

def checkBranch (r : Repository) (e : BranchName × CommitId) : Check :=
  require (r.commits.contains e.2) (.danglingBranch e.1 e.2)

/-! ## Cycles

A depth-first search colours commits: a commit is open while its parents are being visited and closed when all of them
are closed. Meeting an open commit again closes a cycle. -/

/-- colours of the commits met so far -/
structure Colours where
  opened : List CommitId
  closed : List CommitId

/-- a commit being visited and the parents still to visit -/
abbrev Visit := CommitId × List CommitId

def pendingParents (stack : List Visit) : Nat := stack.foldr (fun v n => v.2.length + n) 0

/-- visit what is on the stack: a commit on a cycle, or the colours at the end -/
def visit (r : Repository) (m : Colours) : List Visit → CommitId ⊕ Colours
  | [] => .inr m
  | (node, []) :: stack => visit r { m with closed := node :: m.closed } stack
  | (node, p :: ps) :: stack =>
    if m.closed.contains p then visit r m ((node, ps) :: stack)
    else if m.opened.contains p then .inl p
    else visit r { m with opened := p :: m.opened } ((p, r.parentsOf p) :: (node, ps) :: stack)
termination_by stack => (r.unseen m.opened, pendingParents stack, stack.length)
decreasing_by
  · exact Prod.Lex.right _ (by simp only [pendingParents]; simp; exact Prod.Lex.right _ (by simp))
  · exact Prod.Lex.right _ (Prod.Lex.left _ _ (by simp [pendingParents]))
  · rename_i hnew
    by_cases hp : r.parentsOf p = []
    · rcases Nat.lt_or_eq_of_le (r.unseen_cons_le p m.opened) with hlt | heq
      · exact Prod.Lex.left _ _ hlt
      · simp only [heq, hp]
        exact Prod.Lex.right _ (Prod.Lex.left _ _ (by simp [pendingParents]))
    · exact Prod.Lex.left _ _ (unseen_cons_lt (mem_mentioned_of_parents_ne_nil hp) (by simpa using hnew))

/-- visit from every commit that has no colour yet -/
def checkAcyclicFrom (r : Repository) (m : Colours) : List CommitId → Check
  | [] => .ok ()
  | root :: rest =>
    if m.opened.contains root then checkAcyclicFrom r m rest
    else
      match r.visit { m with opened := root :: m.opened } [(root, r.parentsOf root)] with
      | .inl id => .error (.cycle id)
      | .inr m => checkAcyclicFrom r m rest

def checkAcyclic (r : Repository) : Check := checkAcyclicFrom r ⟨[], []⟩ r.commits.keys

/-- the first violation in a repository, if there is one -/
def check (r : Repository) : Check := do
  checkEach checkBlob r.blobs.entries
  checkEach r.checkCommit r.commits.entries
  checkEach r.checkBranch r.branches.entries
  match r.head with
  | .detached id => require (r.commits.contains id) (.danglingHead id)
  | .attached _ => pure ()
  match r.mergeHead with
  | some id => require (r.commits.contains id) (.danglingMergeHead id)
  | none => pure ()
  r.checkAcyclic

end Repository

end RepoTutor.Repo
