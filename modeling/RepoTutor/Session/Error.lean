/-
Failures of a session itself. That a line is not understood or is refused is no failure but part of a response.
-/
import RepoTutor.Store.Snapshot

namespace RepoTutor.Session

open Repo Store

inductive SessionError where
  | unknownPractice (id : String)
  | store (cause : StoreError)
  /-- an operation broke the repository, or a broken one was loaded; the session halts -/
  | invariant (v : Violation)
  /-- the session halted earlier -/
  | halted (key : SessionKey) (reason : String)
  deriving DecidableEq, Repr

namespace SessionError

/-- the stored and the wanted version, where starting over would help -/
def versions? : SessionError → Option (Nat × Nat)
  | store (.resetRequired _ stored current) => some (stored, current)
  | store (.versionConflict _ stored attempted) => some (stored, attempted)
  | _ => none

/-- whether the session has halted -/
def isHalt : SessionError → Bool
  | invariant _ => true
  | halted _ _ => true
  | _ => false

/-- short name of the cause -/
def code : SessionError → String
  | unknownPractice _ => "unknown_practice"
  | store (.resetRequired _ _ _) => "reset_required"
  | store (.versionConflict _ _ _) => "reset_required"
  | store _ => "store_error"
  | invariant _ => "session_halted"
  | halted _ _ => "session_halted"

def message : SessionError → String
  | unknownPractice id => "unknown practice \"" ++ id ++ "\""
  | store cause => cause.message
  | invariant v => "internal error, session halted: " ++ v.message
  | halted key reason =>
    "session " ++ key.text ++ " is halted after an internal error (" ++ reason ++ "); reset the practice to continue"

end SessionError

end RepoTutor.Session
