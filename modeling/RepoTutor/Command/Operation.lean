/-
Operations on a repository, as data.

An operation is what one terminal line asks for. Whether it is legal depends on the repository and is decided when it is
applied, never here.
-/

namespace RepoTutor.Command

/-- whether a merge may, must not or has to move the branch without a new commit -/
inductive FastForward where
  | allow
  | never
  | only
  deriving DecidableEq, Repr

inductive ResetMode where
  | soft
  | mixed
  | hard
  deriving DecidableEq, Repr

inductive CheckoutMode where
  /-- a branch attaches HEAD, any other revision detaches it -/
  | any
  /-- branches only -/
  | branchOnly
  /-- detach HEAD at a revision -/
  | detach
  /-- create the target as a branch and attach to it; `force` allows an existing one to be moved -/
  | create (start : Option String) (force : Bool)
  deriving DecidableEq, Repr

structure CommitArgs where
  message : Option String := none
  all : Bool := false
  amend : Bool := false
  allowEmpty : Bool := false
  author : Option String := none
  deriving DecidableEq, Repr

inductive BranchOp where
  | list
  | create (name : String) (start : Option String)
  | delete (name : String) (force : Bool)
  /-- rename `source`, or the current branch when it is absent -/
  | rename (source : Option String) (target : String)
  deriving DecidableEq, Repr

inductive MergeOp where
  | start (source : String) (ff : FastForward) (commit : Bool) (message : Option String)
  | abort
  deriving DecidableEq, Repr

inductive Operation where
  | init (initialBranch : Option String)
  | add (pathspecs : List String) (all : Bool)
  /-- stage deletions -/
  | remove (paths : List String)
  /-- discard unstaged edits, or unstage -/
  | restore (paths : List String) (staged : Bool)
  | commit (args : CommitArgs)
  | branch (op : BranchOp)
  | checkout (target : String) (mode : CheckoutMode)
  | merge (op : MergeOp)
  | reset (target : Option String) (mode : ResetMode)
  | log (target : Option String) (limit : Option Nat) (oneline : Bool)
  | status
  /-- a simulated edit of each file -/
  | touch (paths : List String)
  /-- write or append one line of text -/
  | writeFile (path : String) (text : String) (append : Bool)
  | deleteFile (paths : List String)
  deriving DecidableEq, Repr

namespace Operation

/-- the word that a learner types for it -/
def name : Operation → String
  | init _ => "init"
  | add _ _ => "add"
  | remove _ => "rm"
  | restore _ _ => "restore"
  | commit _ => "commit"
  | branch _ => "branch"
  | checkout _ _ => "checkout"
  | merge _ => "merge"
  | reset _ _ => "reset"
  | log _ _ _ => "log"
  | status => "status"
  | touch _ => "touch"
  | writeFile _ _ _ => "echo"
  | deleteFile _ => "rm"

/-- operations that never change a repository -/
def isReadOnly : Operation → Bool
  | log _ _ _ => true
  | status => true
  | branch .list => true
  | _ => false

end Operation

end RepoTutor.Command
