/-
The executor: runs lines, grades and resets the sessions of all learners over one store.

A session is loaded when it is first used and kept in a slot; at capacity the slots of idle sessions are given up, and
those sessions are loaded again later. A line takes effect only after it has been saved. A session whose repository
turns out to be broken halts, and only a reset ends that.
-/
import RepoTutor.Session.Error
import RepoTutor.Session.Response
import RepoTutor.Store.Backend

namespace RepoTutor.Session

open Command Repo Transition Practice Store

/-- where a session is -/
structure Loaded where
  state : Repository
  history : List String
  version : Nat
  deriving DecidableEq, Repr

/-- what is kept of a session between calls -/
structure Slot where
  view : Option Loaded := none
  /-- why the session halted, if it did -/
  halted : Option String := none
  deriving DecidableEq, Repr

structure Executor (σ : Type) where
  store : σ
  practices : Table Compiled
  slots : KeyTable Slot := .empty
  saveAttempts : Nat := 3
  capacity : Nat := 1024

/-- the answer to a call, the executor after it, and the event that the call caused -/
structure Reply (σ α : Type) where
  answer : Except SessionError α
  executor : Executor σ
  event : Option EventKind := none

namespace Executor

variable {σ α : Type}

/-- an executor for some practices; of those with one identifier the last counts -/
def new (store : σ) (practices : List Compiled) : Executor σ :=
  { store := store, practices := Table.ofList (practices.map (fun p => (p.id, p))) }

/-- how often saving is tried, at least once -/
def withSaveAttempts (e : Executor σ) (n : Nat) : Executor σ := { e with saveAttempts := max n 1 }

/-- how many sessions are kept, at least one -/
def withCapacity (e : Executor σ) (n : Nat) : Executor σ := { e with capacity := max n 1 }

def practice? (e : Executor σ) (id : String) : Option Compiled := e.practices.get? id

/-! ## Slots -/

/-- give up the slots of sessions that have not halted; slots in use would be kept too, but calls are whole, so that no
other call holds a slot when room is made -/
def evictIdle (slots : KeyTable Slot) : KeyTable Slot := slots.filter (fun s => s.halted.isSome)

/-- make sure that a session has a slot -/
def openSlot (e : Executor σ) (key : SessionKey) : Executor σ :=
  if e.slots.contains key then e
  else
    let slots := if e.capacity ≤ e.slots.size then evictIdle e.slots else e.slots
    { e with slots := slots.insert key {} }

def slot (e : Executor σ) (key : SessionKey) : Slot := (e.slots.get? key).getD {}

def setSlot (e : Executor σ) (key : SessionKey) (s : Slot) : Executor σ := { e with slots := e.slots.insert key s }

/-! ## Calls -/

def fail (e : Executor σ) (cause : SessionError) : Reply σ α := ⟨.error cause, e, none⟩

/-- where a session is according to its snapshot; one that has not begun is at the practice's start -/
def loadedFrom (p : Compiled) (s : Snapshot) : Loaded := ⟨s.state.getD p.initial, s.history, s.version⟩

variable [Backend σ]

/-- bring a session into its slot -/
def ensureLoaded (e : Executor σ) (p : Compiled) (key : SessionKey) : Except SessionError Loaded × Executor σ :=
  let s := e.slot key
  match s.halted, s.view with
  | some reason, _ => (.error (.halted key reason), e)
  | none, some l => (.ok l, e)
  | none, none =>
    match Backend.load e.store key p.version with
    | .error (.corrupt _ v) => (.error (.invariant v), e.setSlot key { s with halted := some v.message })
    | .error cause => (.error (.store cause), e)
    | .ok outcome =>
      match outcome.snapshot key with
      | .error cause => (.error (.store cause), e)
      | .ok snapshot =>
        let l := loadedFrom p snapshot
        (.ok l, e.setSlot key { s with view := some l })

/-- a call on a session of a known practice, once it is loaded -/
def onSession (e : Executor σ) (key : SessionKey) (call : Executor σ → Compiled → Loaded → Reply σ α) : Reply σ α :=
  match e.practice? key.practice with
  | none => e.fail (.unknownPractice key.practice)
  | some p =>
    match (e.openSlot key).ensureLoaded p key with
    | (.error cause, e) => e.fail cause
    | (.ok l, e) => call e p l

/-- save a snapshot, trying again up to `again` times unless it is of another version -/
def persist (key : SessionKey) (s : Snapshot) : Nat → σ → Except StoreError Unit × σ
  | again, store =>
    match Backend.save store key s with
    | (.ok (), store) => (.ok (), store)
    | (.error (.versionConflict k stored attempted), store) => (.error (.versionConflict k stored attempted), store)
    | (.error cause, store) =>
      match again with
      | 0 => (.error cause, store)
      | n + 1 => persist key s n store

/-- run one line -/
def execute (e : Executor σ) (key : SessionKey) (text : String) : Reply σ Response :=
  e.onSession key fun e _ current =>
    let line := Text.trim text
    match parse line with
    | .error cause => ⟨.ok ⟨.error (.parse cause), current.state⟩, e, none⟩
    | .ok op =>
      match Transition.apply current.state op with
      | .error (.invariant v) =>
        (e.setSlot key { e.slot key with halted := some v.message }).fail (.invariant v)
      | .error cause => ⟨.ok ⟨.error (.transition cause), current.state⟩, e, none⟩
      | .ok outcome =>
        let history := current.history ++ [line]
        match persist key ⟨key.practice, some outcome.state, current.version, history⟩ (e.saveAttempts - 1) e.store with
        | (.error cause, store) => { e with store := store }.fail (.store cause)
        | (.ok (), store) =>
          let l : Loaded := ⟨outcome.state, history, current.version⟩
          ⟨.ok ⟨.ok outcome.output, outcome.state⟩,
            { e with store := store }.setSlot key { e.slot key with view := some l },
            some (.executed line outcome.state)⟩

/-- grade where a session is -/
def validate (e : Executor σ) (key : SessionKey) : Reply σ Grading.Verdict :=
  e.onSession key fun e p current =>
    let v := p.verdict current.state current.history
    ⟨.ok v, e, some (.validated v.isCorrect v.score)⟩

/-- a session as its learner sees it -/
def viewOf (key : SessionKey) (l : Loaded) : View := ⟨key, l.version, l.state, l.history⟩

/-- where a session is -/
def state (e : Executor σ) (key : SessionKey) : Reply σ View :=
  e.onSession key fun e _ current => ⟨.ok (viewOf key current), e, none⟩

/-- start over at the practice's version; this ends a halt -/
def reset (e : Executor σ) (key : SessionKey) : Reply σ View :=
  match e.practice? key.practice with
  | none => e.fail (.unknownPractice key.practice)
  | some p =>
    let e := e.openSlot key
    match Backend.reset e.store key p.version with
    | (.error cause, store) => { e with store := store }.fail (.store cause)
    | (.ok s, store) =>
      let l : Loaded := ⟨p.initial, s.history, s.version⟩
      ⟨.ok (viewOf key l), { e with store := store }.setSlot key ⟨some l, none⟩, some (.reset p.version p.initial)⟩

/-- practices with stored progress of a learner, and their versions -/
def progress (e : Executor σ) (learner : String) : Except SessionError (List (String × Nat)) :=
  (Backend.list e.store learner).mapError .store

end Executor

end RepoTutor.Session
