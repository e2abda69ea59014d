/-
Stores of snapshots: the operations that all of them have, the store in memory and the archive of texts.

All of them keep one versioned place for each session. The archive keeps what it writes as text, as a file does, and
reads it again when a session is loaded.
-/
import RepoTutor.Json.Printer
import RepoTutor.Store.Snapshot

namespace RepoTutor.Store

open Repo
open Json (Value)

/-- the operations of a store; those that write give the store after them, also when they fail -/
class Backend (σ : Type) where
  /-- the session as the given version of its practice finds it -/
  load : σ → SessionKey → Nat → Except StoreError LoadOutcome
  save : σ → SessionKey → Snapshot → Except StoreError Unit × σ
  /-- forget the session and begin it anew at a version -/
  reset : σ → SessionKey → Nat → Except StoreError Snapshot × σ
  /-- practices with stored progress of a learner, and their versions -/
  list : σ → String → Except StoreError (List (String × Nat))

/-! ## In memory -/

/-- a store that lives as long as its process -/
structure MemoryStore where
  rows : KeyTable Snapshot
  deriving DecidableEq, Repr

namespace MemoryStore

def empty : MemoryStore := ⟨.empty⟩

def load (m : MemoryStore) (key : SessionKey) (current : Nat) : LoadOutcome :=
  match m.rows.get? key with
  | none => .fresh (.empty key.practice current)
  | some s => if s.version = current then .ready s else .resetRequired s.version current

def save (m : MemoryStore) (key : SessionKey) (s : Snapshot) : Except StoreError MemoryStore :=
  match m.rows.get? key with
  | none => .ok ⟨m.rows.insert key s⟩
  | some stored =>
    if stored.version = s.version then .ok ⟨m.rows.insert key s⟩
    else .error (.versionConflict key stored.version s.version)

def reset (m : MemoryStore) (key : SessionKey) (version : Nat) : MemoryStore :=
  ⟨m.rows.insert key (.empty key.practice version)⟩

def list (m : MemoryStore) (learner : String) : List (String × Nat) :=
  ((m.rows.ofLearner learner).map (fun _ s => s.version)).entries

end MemoryStore

instance : Backend MemoryStore where
  load m key current := .ok (m.load key current)
  save m key s := match m.save key s with
    | .ok m => (.ok (), m)
    | .error e => (.error e, m)
  reset m key version := (.ok (.empty key.practice version), m.reset key version)
  list m learner := .ok (m.list learner)

/-! ## As texts -/

/-- a snapshot as an archive keeps it -/
structure Row where
  version : Nat
  state : Option String
  history : String
  deriving DecidableEq, Repr

namespace Row

def ofSnapshot (s : Snapshot) : Row :=
  ⟨s.version, s.state.map (fun r => r.toJson.compact), (Value.ofStrings s.history).compact⟩

/-- the repository in a text -/
def readState (key : SessionKey) (text : String) : Except StoreError Repository :=
  match Repository.ofText text with
  | .ok r => .ok r
  | .error .malformed => .error .unreadable
  | .error (.violation v) => .error (.corrupt key v)

def readHistory (text : String) : Except StoreError (List String) :=
  match (Value.parse? text).bind (Value.listOf? Value.str?) with
  | some l => .ok l
  | none => .error .unreadable

/-- the snapshot of a session in its row -/
def snapshot (row : Row) (key : SessionKey) : Except StoreError Snapshot := do
  let state ← match row.state with
    | none => .ok none
    | some text => (readState key text).map some
  let history ← readHistory row.history
  return ⟨key.practice, state, row.version, history⟩

end Row

/-- a store that keeps texts -/
structure Archive where
  rows : KeyTable Row
  deriving DecidableEq, Repr

namespace Archive

def empty : Archive := ⟨.empty⟩

def load (a : Archive) (key : SessionKey) (current : Nat) : Except StoreError LoadOutcome :=
  match a.rows.get? key with
  | none => .ok (.fresh (.empty key.practice current))
  | some row =>
    if row.version = current then (row.snapshot key).map .ready
    else .ok (.resetRequired row.version current)

def save (a : Archive) (key : SessionKey) (s : Snapshot) : Except StoreError Archive :=
  match a.rows.get? key with
  | none => .ok ⟨a.rows.insert key (.ofSnapshot s)⟩
  | some row =>
    if row.version = s.version then .ok ⟨a.rows.insert key (.ofSnapshot s)⟩
    else .error (.versionConflict key row.version s.version)

def reset (a : Archive) (key : SessionKey) (version : Nat) : Archive :=
  ⟨a.rows.insert key ⟨version, none, "[]"⟩⟩

def list (a : Archive) (learner : String) : List (String × Nat) :=
  ((a.rows.ofLearner learner).map (fun _ row => row.version)).entries

end Archive

instance : Backend Archive where
  load := Archive.load
  save a key s := match a.save key s with
    | .ok a => (.ok (), a)
    | .error e => (.error e, a)
  reset a key version := (.ok (.empty key.practice version), a.reset key version)
  list a learner := .ok (a.list learner)

/-! ## On a failing medium -/

/-- a store whose next saves fail, and whose loads fail while it is damaged -/
structure Unreliable (σ : Type) where
  store : σ
  failingSaves : Nat := 0
  failure : String
  damage : Option Violation := none

instance {σ : Type} [Backend σ] : Backend (Unreliable σ) where
  load u key current := match u.damage with
    | some v => .error (.corrupt key v)
    | none => Backend.load u.store key current
  save u key s := match u.failingSaves with
    | n + 1 => (.error (.io u.failure), { u with failingSaves := n })
    | 0 =>
      let (answer, store) := Backend.save u.store key s
      (answer, { u with store := store })
  reset u key version :=
    let (answer, store) := Backend.reset u.store key version
    (answer, { u with store := store })
  list u learner := Backend.list u.store learner

end RepoTutor.Store
