/-
Applying an operation to a repository.

`step` gives the next repository and what the learner is told, or the reason for a refusal; a refused operation changes
nothing. `apply` checks the next repository again unless the operation only reads.
-/
import RepoTutor.Command.Operation
import RepoTutor.Pattern.Glob
import RepoTutor.Repo.Revision
import RepoTutor.Transition.Edits
import RepoTutor.Transition.Output

namespace RepoTutor.Transition

open Command Repo

/-- a repository and what the learner is told about it -/
structure Outcome where
  state : Repository
  output : Output
  deriving DecidableEq, Repr

def say (state : Repository) (lines : List String) : Outcome := ⟨state, .message lines⟩

def silently (state : Repository) : Outcome := say state []

/-- the commit of a revision -/
def resolveRef (r : Repository) (rev : String) : Refusable CommitId :=
  match r.resolve rev with
  | some id => .ok id
  | none => .error (.unknownRef rev)

/-- the commit of HEAD -/
def bornHead (r : Repository) : Refusable CommitId :=
  match r.headId with
  | some id => .ok id
  | none => .error (.noCommitsYet r.headLabel)

def filesChangedLine (n : Nat) : String :=
  if n = 1 then " 1 file changed" else " " ++ Text.natText n ++ " files changed"

/-! ## Setup and files -/

def init (r : Repository) (initialBranch : Option BranchName) : Outcome :=
  if r.commits.isEmpty && r.branches.isEmpty then
    let next := match initialBranch with
      | some name => { r with head := .attached name }
      | none => r
    say next ["Initialized empty Git repository on branch '" ++ next.headLabel ++ "'"]
  else
    say r ((if initialBranch.isSome then ["warning: re-init: ignored --initial-branch"] else [])
      ++ ["Reinitialized existing Git repository"])

/-- content of a simulated edit: it tells the path and the time of the next commit -/
def simulatedContent (path : Path) (clock : Nat) : String :=
  path ++ " (revision " ++ Text.natText (tick clock) ++ ")\n"

/-- whether a path specification is a pattern -/
def isPattern (spec : String) : Bool := spec.toList.any (fun c => c == '*' || c == '?' || c == '[')

/-- the directory that a path specification names, with a slash at its end -/
def directoryOf (spec : String) : List Char :=
  Text.dropEndWhile (· == '/') spec.toList ++ ['/']

/-- whether a path is the specification itself or lies under it as a directory -/
def liesAt (spec : String) (path : Path) : Bool := path == spec || (directoryOf spec).isPrefixOf path.toList

/-- candidates that a path specification selects -/
def matchPathspec (spec : String) (candidates : List Path) : Refusable (List Path) :=
  if isPattern spec then
    match Pattern.Glob.ofText? spec with
    | some glob => .ok (candidates.filter glob.isMatch)
    | none => .error (.pathspecNoMatch spec)
  else .ok (candidates.filter (liesAt spec))

/-- what `add` does to paths: stage their edits, or simulate new ones -/
structure Selection where
  toStage : List Path
  toSimulate : List Path

/-- one selected path: a pending edit is staged, a committed file named exactly is edited -/
def selectPath (r : Repository) (spec : String) (s : Selection) (path : Path) : Selection :=
  if r.edits.contains path then { s with toStage := s.toStage ++ [path] }
  else if path = spec then { s with toSimulate := s.toSimulate ++ [path] }
  else s

def selectSpec (r : Repository) (candidates : List Path) (s : Selection) (spec : String) : Refusable Selection := do
  match ← matchPathspec spec candidates with
  | [] =>
    if isPattern spec then .error (.pathspecNoMatch spec)
    else .ok { s with toSimulate := s.toSimulate ++ [spec] }
  | matched => .ok (matched.foldl (selectPath r spec) s)

/-- stage a simulated edit -/
def simulateEdit (r : Repository) (path : Path) : Repository :=
  r.setEdit path (some (simulatedContent path r.clock)) true

def add (r : Repository) (pathspecs : List String) (all : Bool) : Refusable Outcome :=
  if all then .ok (silently (r.markStaged true (fun _ => true)))
  else do
    let candidates := ascendingKeys (r.headTree.keys ++ r.edits.keys)
    let s ← pathspecs.foldlM (selectSpec r candidates) ⟨[], []⟩
    let staged := r.markStaged true s.toStage.contains
    return silently (s.toSimulate.foldl simulateEdit staged)

/-- a path with neither a committed file nor a pending edit -/
def isUnknownPath (r : Repository) (path : Path) : Bool := !r.headTree.contains path && !r.edits.contains path

/-- refuse paths that nothing is known of -/
def checkKnownPaths (r : Repository) (paths : List Path) : Refusable Unit :=
  match paths.find? (isUnknownPath r) with
  | some path => .error (.pathspecNoMatch path)
  | none => .ok ()

/-- stage the deletion of a committed file, or drop the edit of another -/
def removePath (r : Repository) (path : Path) : Repository :=
  if r.headTree.contains path then r.setEdit path none true else { r with edits := r.edits.erase path }

def remove (r : Repository) (paths : List Path) : Refusable Outcome := do
  checkKnownPaths r paths
  return say (paths.foldl removePath r) (paths.map (fun p => "rm '" ++ p ++ "'"))

/-- discard the edit of a path unless it is staged -/
def discardPath (r : Repository) (path : Path) : Repository :=
  match r.edits.get? path with
  | some e => if e.staged then r else { r with edits := r.edits.erase path }
  | none => r

def restore (r : Repository) (paths : List Path) (staged : Bool) : Refusable Outcome := do
  checkKnownPaths r paths
  if staged then return silently (r.markStaged false paths.contains)
  else return silently (paths.foldl discardPath r)

/-- an empty file where there is none -/
def touchPath (r : Repository) (path : Path) : Repository :=
  if (r.fileContent path).isNone then r.setEdit path (some "") false else r

def touch (r : Repository) (paths : List Path) : Outcome := silently (paths.foldl touchPath r)

def writeFile (r : Repository) (path : Path) (text : String) (append : Bool) : Outcome :=
  let before := if append then (r.fileContent path).getD "" else ""
  silently (r.setEdit path (some (before ++ text ++ "\n")) false)

def deleteFiles (r : Repository) (paths : List Path) : Refusable Outcome :=
  match paths.find? (fun p => (r.fileContent p).isNone) with
  | some path => .error (.noSuchFile path)
  | none => .ok (silently (paths.foldl (fun r p => r.setEdit p none false) r))

/-! ## Commit -/

/-- message of a merge that is concluded without one: the first branch at the merged commit gives the name -/
def defaultMergeMessage (r : Repository) (mergeHead : CommitId) : String :=
  match r.branches.entries.find? (fun e => e.2 == mergeHead) with
  | some (name, _) => "Merge branch '" ++ name ++ "'"
  | none => "Merge commit '" ++ short mergeHead ++ "'"

/-- what a new commit is made of, its tree before the staged edits -/
structure Draft where
  parents : List CommitId
  message : String
  author : String
  base : Tree

def amendDraft (r : Repository) (args : CommitArgs) : Refusable Draft :=
  match r.headCommit with
  | none => .error .nothingToAmend
  | some head => .ok ⟨head.parents, args.message.getD head.message, args.author.getD head.author, head.tree⟩

def commitMessage (r : Repository) (args : CommitArgs) : Refusable String :=
  match args.message, r.mergeHead with
  | some m, _ => .ok m
  | none, some id => .ok (defaultMergeMessage r id)
  | none, none => .error .missingMessage

def freshDraft (r : Repository) (args : CommitArgs) : Refusable Draft := do
  if !r.hasStaged && !args.allowEmpty && r.mergeHead.isNone then .error .nothingToCommit
  else
    let message ← commitMessage r args
    return ⟨r.headId.toList ++ r.mergeHead.toList, message, args.author.getD defaultAuthor, r.headTree⟩

/-- how the place of a new commit is told -/
def commitLabel (r : Repository) (root : Bool) : String :=
  match r.head with
  | .attached name => if root then name ++ " (root-commit)" else name
  | .detached _ => "detached HEAD"

/-- the repository with a new commit at HEAD -/
def addCommit (r : Repository) (c : Commit) : Repository :=
  { r with clock := c.timestamp, commits := r.commits.insert c.id c }.moveHead c.id

def commit (r : Repository) (args : CommitArgs) : Refusable Outcome := do
  if args.amend && r.mergeHead.isSome then .error .mergeInProgress
  else
    let r := if args.all then r.markStaged true r.headTree.contains else r
    let d ← if args.amend then amendDraft r args else freshDraft r args
    let tree := r.stagedTree d.base
    let changed := (changedPaths (r.treeOf d.parents.head?) tree).length
    let c := Commit.make d.parents d.author (tick r.clock) d.message tree
    let next := { (addCommit r.storeStaged c).dropStaged with mergeHead := none }.settleEdits
    return say next
      ["[" ++ commitLabel next d.parents.isEmpty ++ " " ++ short c.id ++ "] " ++ c.summary, filesChangedLine changed]

/-! ## Branches -/

/-- whether a commit is part of HEAD's history -/
def isMerged (r : Repository) (id : CommitId) : Bool :=
  match r.headId with
  | some head => r.isAncestor id head
  | none => false

def createBranch (r : Repository) (name : BranchName) (start : Option String) : Refusable Outcome := do
  if r.branches.contains name then .error (.branchAlreadyExists name)
  else
    let target ← match start with
      | some rev => resolveRef r rev
      | none => bornHead r
    return silently { r with branches := r.branches.insert name target }

def deleteBranch (r : Repository) (name : BranchName) (force : Bool) : Refusable Outcome :=
  match r.branches.get? name with
  | none => .error (.unknownBranch name)
  | some target =>
    if r.currentBranch = some name then .error (.cannotDeleteCurrentBranch name)
    else if !force && !isMerged r target then .error (.branchNotMerged name)
    else
      .ok (say { r with branches := r.branches.erase name }
        ["Deleted branch " ++ name ++ " (was " ++ short target ++ ")."])

/-- rename a branch; HEAD follows, also when the branch does not exist yet -/
def renameBranch (r : Repository) (source target : BranchName) : Refusable Outcome :=
  let onSource := r.currentBranch = some source
  let head := if onSource then .attached target else r.head
  if source = target then .ok (silently r)
  else if r.branches.contains target then .error (.branchAlreadyExists target)
  else
    match r.branches.get? source with
    | some id => .ok (silently { r with branches := (r.branches.erase source).insert target id, head := head })
    | none => if onSource then .ok (silently { r with head := head }) else .error (.unknownBranch source)

def branch (r : Repository) : BranchOp → Refusable Outcome
  | .list => .ok ⟨r, .branches r.currentBranch r.detachedAt r.branches.keys⟩
  | .create name start => createBranch r name start
  | .delete name force => deleteBranch r name force
  | .rename (some source) target => renameBranch r source target
  | .rename none target =>
    match r.currentBranch with
    | some source => renameBranch r source target
    | none => .error .detachedHead

/-! ## Moving HEAD -/

/-- HEAD somewhere else, with the pending edits carried along -/
def switchHead (r : Repository) (head : Head) (id : CommitId) : Refusable Repository := do
  r.checkOverwrite (r.treeOf (some id))
  return { r with head := head }.settleEdits

def checkoutNew (r : Repository) (name : BranchName) (start : Option String) (force : Bool) : Refusable Outcome := do
  let existing := r.branches.contains name
  if existing && !force then .error (.branchAlreadyExists name)
  else
    let target ← match start with
      | some rev => (resolveRef r rev).map some
      | none => .ok r.headId
    match target with
    | some id =>
      r.checkOverwrite (r.treeOf (some id))
      let next := { r with branches := r.branches.insert name id, head := .attached name }.settleEdits
      return say next
        [(if existing then "Switched to and reset branch '" else "Switched to a new branch '") ++ name ++ "'"]
    | none =>
      return say { r with head := .attached name } ["Switched to a new branch '" ++ name ++ "'"]

def checkoutDetached (r : Repository) (rev : String) : Refusable Outcome := do
  let id ← resolveRef r rev
  let next ← switchHead r (.detached id) id
  let summary := match r.commits.get? id with
    | some c => c.summary
    | none => ""
  return say next
    ["Note: switching to '" ++ rev ++ "'.", "You are in 'detached HEAD' state.",
      "HEAD is now at " ++ short id ++ " " ++ summary]

/-- a branch attaches HEAD; another revision is an error, or detaches HEAD -/
def checkoutNamed (r : Repository) (target : String) (branchOnly : Bool) : Refusable Outcome := do
  if r.currentBranch = some target then return say r ["Already on '" ++ target ++ "'"]
  else
    match r.branches.get? target with
    | some id =>
      let next ← switchHead r (.attached target) id
      return say next ["Switched to branch '" ++ target ++ "'"]
    | none =>
      if branchOnly then
        if (r.resolve target).isSome then .error (.notABranch target) else .error (.unknownBranch target)
      else checkoutDetached r target

def checkout (r : Repository) (target : String) (mode : CheckoutMode) : Refusable Outcome :=
  if r.mergeHead.isSome then .error .mergeInProgress
  else
    match mode with
    | .create start force => checkoutNew r target start force
    | .detach => checkoutDetached r target
    | .branchOnly => checkoutNamed r target true
    | .any => checkoutNamed r target false

/-! ## Merge -/

/-- HEAD's branch at a commit that continues it -/
def advance (r : Repository) (id : CommitId) : Refusable Repository := do
  r.checkOverwrite (r.treeOf (some id))
  return (r.moveHead id).settleEdits

/-- stage the merged content of one path -/
def stageMerged (merged : Tree) (r : Repository) (path : Path) : Repository :=
  r.setEdit path (r.contentIn merged path) true

/-- message of a merge commit that is given none: a branch is called by its name, another revision as it was typed -/
def mergeMessage (r : Repository) (source : String) : String :=
  if r.branches.contains source then "Merge branch '" ++ source ++ "'" else "Merge commit '" ++ source ++ "'"

/-- join two histories that have both moved on, or must not be fast-forwarded -/
def trueMerge (r : Repository) (source : String) (ours theirs : CommitId) (commit : Bool) (message : Option String) :
    Refusable Outcome := do
  match r.mergeBase ours theirs with
  | none => .error .unrelatedHistories
  | some base =>
    let oursTree := r.treeOf (some ours)
    match mergeTrees (r.treeOf (some base)) oursTree (r.treeOf (some theirs)) with
    | .error paths => .error (.mergeConflict paths)
    | .ok merged =>
      r.checkOverwrite merged
      let changed := changedPaths oursTree merged
      if !commit then
        let next := { changed.foldl (stageMerged merged) r with mergeHead := some theirs }
        return say next ["Automatic merge went well; stopped before committing as requested"]
      else
        let c := Commit.make [ours, theirs] defaultAuthor (tick r.clock) (message.getD (mergeMessage r source)) merged
        return say (addCommit r c).settleEdits
          ["Merge made by the 'ort' strategy.", filesChangedLine changed.length]

def merge (r : Repository) (source : String) (ff : FastForward) (commit : Bool) (message : Option String) :
    Refusable Outcome := do
  if r.mergeHead.isSome then .error .mergeInProgress
  else if r.hasStaged then .error .uncommittedChanges
  else
    let theirs ← resolveRef r source
    match r.headId with
    | none =>
      let next ← advance r theirs
      return say next ["Updating to " ++ short theirs, "Fast-forward"]
    | some ours =>
      if r.isAncestor theirs ours then return say r ["Already up to date."]
      else if r.isAncestor ours theirs && ff ≠ .never then
        let next ← advance r theirs
        let changed := changedPaths (r.treeOf (some ours)) (r.treeOf (some theirs))
        return say next
          ["Updating " ++ short ours ++ ".." ++ short theirs, "Fast-forward", filesChangedLine changed.length]
      else if ff = .only then .error (.notFastForward source)
      else trueMerge r source ours theirs commit message

def abortMerge (r : Repository) : Refusable Outcome :=
  if r.mergeHead.isNone then .error .noMergeInProgress
  else .ok (say { r.dropStaged with mergeHead := none } ["Merge aborted."])

/-! ## Reset -/

/-- keep the old content of a path as an edit unless it has one -/
def keepContent (old : Tree) (staged : Bool) (r : Repository) (path : Path) : Repository :=
  if r.edits.contains path then r else r.setEdit path (r.contentIn old path) staged

/-- edits and HEAD after a move that keeps the files as they are -/
def keepFiles (r : Repository) (old : Tree) (staged : Bool) : Repository :=
  ((changedPaths old r.headTree).foldl (keepContent old staged) r).settleEdits

/-- the line of a pending edit after a reset -/
def resetLine (tree : Tree) (e : Path × Edit) : String :=
  let flag := if e.2.content.isNone then "D" else if tree.contains e.1 then "M" else "A"
  flag ++ "\t" ++ e.1

def hardResetLine (r : Repository) : String :=
  match r.headCommit with
  | some c => "HEAD is now at " ++ short c.id ++ " " ++ c.summary
  | none => "HEAD is now at an empty tree"

def reset (r : Repository) (target : Option String) (mode : ResetMode) : Refusable Outcome := do
  let old := r.headTree
  let id ← match target with
    | some rev => (resolveRef r rev).map some
    | none => .ok r.headId
  let r := { r with mergeHead := none }
  let moved := match id with
    | some id => r.moveHead id
    | none => r
  match mode with
  | .hard => return say { moved with edits := .empty } [hardResetLine moved]
  | .soft => return silently (keepFiles moved old true)
  | .mixed =>
    let next := keepFiles (moved.markStaged false (fun _ => true)) old false
    if next.edits.isEmpty then return silently next
    else
      return say next ("Unstaged changes after reset:" :: next.edits.entries.map (resetLine next.headTree))

/-! ## Log and status -/

/-- names that point at a commit: HEAD, then the other branches in ascending order -/
def refsOf (r : Repository) (id : CommitId) : List String :=
  let head := match r.head with
    | .detached h => if h = id then ["HEAD"] else []
    | .attached name => if r.branches.get? name = some id then ["HEAD -> " ++ name] else []
  head ++ (r.branches.entries.filter (fun e => e.2 == id && r.currentBranch != some e.1)).map (·.1)

def logEntry (r : Repository) (c : Commit) : LogEntry :=
  ⟨c.id, c.parents, c.author, c.timestamp, c.message, refsOf r c.id⟩

def log (r : Repository) (target : Option String) (limit : Option Nat) (oneline : Bool) : Refusable Outcome := do
  let start ← match target with
    | some rev => resolveRef r rev
    | none => bornHead r
  let commits := r.history start
  let shown := match limit with
    | some n => commits.take n
    | none => commits
  return ⟨r, .log (shown.map (logEntry r)) oneline⟩

/-- how an edit changes a file of a tree -/
def changeKind (tree : Tree) (path : Path) (e : Edit) : ChangeKind :=
  if e.content.isNone then .deleted else if tree.contains path then .modified else .added

/-- pending edits against the commit that HEAD stands for -/
def status (r : Repository) : StatusReport :=
  let change (e : Path × Edit) : FileChange := ⟨e.1, changeKind r.headTree e.1 e.2⟩
  let staged := (r.edits.entries.filter (fun e => e.2.staged)).map change
  let others := (r.edits.entries.filter (fun e => !e.2.staged)).map change
  { branch := r.currentBranch
    detachedAt := r.detachedAt
    unborn := r.isUnborn
    merging := r.mergeHead.isSome
    staged := staged
    unstaged := others.filter (fun c => c.change ≠ .added)
    untracked := (others.filter (fun c => c.change = .added)).map (·.path) }

/-! ## Operations -/

/-- the next repository and what the learner is told, or the reason for a refusal -/
def step (r : Repository) : Operation → Refusable Outcome
  | .init initialBranch => .ok (init r initialBranch)
  | .add pathspecs all => add r pathspecs all
  | .remove paths => remove r paths
  | .restore paths staged => restore r paths staged
  | .commit args => commit r args
  | .branch op => branch r op
  | .checkout target mode => checkout r target mode
  | .merge (.start source ff commit message) => merge r source ff commit message
  | .merge .abort => abortMerge r
  | .reset target mode => reset r target mode
  | .log target limit oneline => log r target limit oneline
  | .status => .ok ⟨r, .status (status r)⟩
  | .touch paths => .ok (touch r paths)
  | .writeFile path text append => .ok (writeFile r path text append)
  | .deleteFile paths => deleteFiles r paths

/-- `step`, refused as an internal error when the next repository is not well-formed -/
def apply (r : Repository) (op : Operation) : Refusable Outcome := do
  let outcome ← step r op
  if op.isReadOnly then return outcome
  else
    match outcome.state.check with
    | .ok () => return outcome
    | .error v => .error (.invariant v)

end RepoTutor.Transition
