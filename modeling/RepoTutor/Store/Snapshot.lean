/-
Saved sessions, and what a store answers.

A snapshot belongs to one version of its practice. A learner whose snapshot is of another version has to start over,
and a snapshot is never replaced by one of another version.
-/
import RepoTutor.Repo.Codec
import RepoTutor.Store.Key

namespace RepoTutor.Store

open Repo
open Json (Value)

/-- what is saved of a session -/
structure Snapshot where
  practiceId : String
  /-- none while the learner has changed nothing -/
  state : Option Repository
  version : Nat
  /-- accepted lines in their order -/
  history : List String
  deriving DecidableEq, Repr

namespace Snapshot

/-- a session that has not begun -/
def empty (practiceId : String) (version : Nat) : Snapshot := ⟨practiceId, none, version, []⟩

def toJson (s : Snapshot) : Value :=
  .obj [("practice_id", .str s.practiceId), ("state", Value.ofOption Repository.toJson s.state),
    ("version", Value.ofNat s.version), ("history", Value.ofStrings s.history)]

def ofJson? (v : Value) : Option Snapshot := do
  let r ← v.record? ["practice_id", "state", "version", "history"]
  return ⟨← r.required "practice_id" Value.str?, ← r.optional "state" Repository.ofJson?,
    ← r.required "version" Value.nat32?, ← r.defaulted "history" [] (Value.listOf? Value.str?)⟩

end Snapshot

/-- what a session finds when it is loaded -/
inductive LoadOutcome where
  | ready (s : Snapshot)
  /-- nothing is stored; the snapshot is empty and has not been written -/
  | fresh (s : Snapshot)
  /-- what is stored belongs to another version and stays until a reset -/
  | resetRequired (stored current : Nat)
  deriving DecidableEq, Repr

inductive StoreError where
  | versionConflict (key : SessionKey) (stored attempted : Nat)
  | resetRequired (key : SessionKey) (stored current : Nat)
  | corrupt (key : SessionKey) (violation : Violation)
  /-- what is stored is no snapshot -/
  | unreadable
  /-- the medium failed -/
  | io (reason : String)
  deriving DecidableEq, Repr

namespace StoreError

/-- short name of the cause -/
def code : StoreError → String
  | versionConflict _ _ _ => "version_conflict"
  | resetRequired _ _ _ => "reset_required"
  | corrupt _ _ => "corrupt"
  | unreadable => "serde"
  | io _ => "io"

def message : StoreError → String
  | versionConflict key stored attempted =>
    "snapshot for " ++ key.text ++ " is stored at version " ++ Text.natText stored
      ++ "; refusing to overwrite it with version " ++ Text.natText attempted
  | resetRequired key stored current =>
    "progress for " ++ key.text ++ " was recorded against version " ++ Text.natText stored
      ++ " of the practice, which is now at version " ++ Text.natText current ++ "; reset to continue"
  | corrupt key violation => "stored state for " ++ key.text ++ " is inconsistent: " ++ violation.message
  | unreadable => "snapshot encoding: invalid text"
  | io reason => "io: " ++ reason

end StoreError

/-- the snapshot to work with, if there is one -/
def LoadOutcome.snapshot (key : SessionKey) : LoadOutcome → Except StoreError Snapshot
  | ready s => .ok s
  | fresh s => .ok s
  | resetRequired stored current => .error (.resetRequired key stored current)

end RepoTutor.Store
