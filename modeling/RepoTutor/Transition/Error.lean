/-
Why an operation is refused, and how it is told.
-/
import RepoTutor.Repo.Invariant

namespace RepoTutor.Transition

open Repo

inductive TransitionError where
  | nothingToCommit
  | missingMessage
  | nothingToAmend
  | noCommitsYet (branch : BranchName)
  | branchAlreadyExists (name : BranchName)
  | unknownBranch (name : BranchName)
  | unknownRef (rev : String)
  | notABranch (rev : String)
  | detachedHead
  | cannotDeleteCurrentBranch (name : BranchName)
  | branchNotMerged (name : BranchName)
  | pathspecNoMatch (spec : String)
  | noSuchFile (path : Path)
  | localChangesWouldBeOverwritten (paths : List Path)
  | uncommittedChanges
  | mergeInProgress
  | noMergeInProgress
  | unrelatedHistories
  | notFastForward (source : String)
  | mergeConflict (paths : List Path)
  | invariant (v : Violation)
  deriving DecidableEq, Repr

namespace TransitionError

/-- whether the repository itself is broken, so that a session has to stop -/
def isFatal : TransitionError → Bool
  | invariant _ => true
  | _ => false

/-- short name of the cause -/
def code : TransitionError → String
  | nothingToCommit => "nothing_to_commit"
  | missingMessage => "missing_message"
  | nothingToAmend => "nothing_to_amend"
  | noCommitsYet _ => "no_commits_yet"
  | branchAlreadyExists _ => "branch_already_exists"
  | unknownBranch _ => "unknown_branch"
  | unknownRef _ => "unknown_ref"
  | notABranch _ => "not_a_branch"
  | detachedHead => "detached_head"
  | cannotDeleteCurrentBranch _ => "cannot_delete_current_branch"
  | branchNotMerged _ => "branch_not_merged"
  | pathspecNoMatch _ => "pathspec_no_match"
  | noSuchFile _ => "no_such_file"
  | localChangesWouldBeOverwritten _ => "local_changes_would_be_overwritten"
  | uncommittedChanges => "uncommitted_changes"
  | mergeInProgress => "merge_in_progress"
  | noMergeInProgress => "no_merge_in_progress"
  | unrelatedHistories => "unrelated_histories"
  | notFastForward _ => "not_fast_forward"
  | mergeConflict _ => "merge_conflict"
  | invariant _ => "invariant_violation"

def message : TransitionError → String
  | nothingToCommit => "nothing to commit (use \"git add\" to stage changes)"
  | missingMessage => "aborting commit due to empty commit message (use -m <message>)"
  | nothingToAmend => "cannot amend: there is no commit yet"
  | noCommitsYet branch => "branch '" ++ branch ++ "' does not have any commits yet"
  | branchAlreadyExists name => "a branch named '" ++ name ++ "' already exists"
  | unknownBranch name => "branch '" ++ name ++ "' not found"
  | unknownRef rev => "'" ++ rev ++ "' did not match any branch or commit"
  | notABranch rev => "'" ++ rev ++ "' is not a branch (use --detach to check out a commit)"
  | detachedHead => "HEAD is detached; not on any branch"
  | cannotDeleteCurrentBranch name => "cannot delete branch '" ++ name ++ "': HEAD is on it"
  | branchNotMerged name => "branch '" ++ name ++ "' is not fully merged (use -D to delete it anyway)"
  | pathspecNoMatch spec => "pathspec '" ++ spec ++ "' did not match any files"
  | noSuchFile path => path ++ ": No such file"
  | localChangesWouldBeOverwritten paths =>
    "your local changes would be overwritten: " ++ Text.joinWith ", " paths
  | uncommittedChanges => "you have staged changes; commit or reset them before merging"
  | mergeInProgress => "a merge is in progress (commit it or run \"git merge --abort\")"
  | noMergeInProgress => "there is no merge to abort"
  | unrelatedHistories => "refusing to merge unrelated histories"
  | notFastForward source => "not possible to fast-forward to '" ++ source ++ "'"
  | mergeConflict paths => "merge conflict in: " ++ Text.joinWith ", " paths
  | invariant v => "internal error: " ++ v.message

end TransitionError

end RepoTutor.Transition
