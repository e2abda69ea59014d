/-
Stores that keep what they are given.

A faithful store behaves as one row for each session (`Faithful.Keeps`): a session is loaded from its row as its
practice's version asks for, a row is replaced by a snapshot of the same version, and a reset begins a new row. Of a
snapshot it has to be known that it can be stored at all: that its repository is well-formed and its numbers are 64-bit
words (`Storable`). The store in memory and the archive of texts are both faithful; the archive reads back what it has
written because the texts of repositories and histories are read back. What one session needs of a store is asked for by
`Keeper`, and a faithful store gives it to all sessions.
-/
import RepoTutor.Proofs.Repo.RoundTrip
import RepoTutor.Store.Backend

namespace RepoTutor.Store

open Repo
open Json (Value)

/-- a snapshot that every store can keep for a session -/
structure Storable (key : SessionKey) (s : Snapshot) : Prop where
  practiceId : s.practiceId = key.practice
  wellFormed : ∀ r, s.state = some r → WellFormed r
  fitsWords : ∀ r, s.state = some r → FitsWords r

theorem Storable.empty (key : SessionKey) (version : Nat) : Storable key (.empty key.practice version) :=
  ⟨rfl, fun _ h => (by cases h), fun _ h => (by cases h)⟩

/-- what a session is kept as -/
abbrev Rows := SessionKey → Option Snapshot

namespace Rows

def empty : Rows := fun _ => none

def set (rows : Rows) (key : SessionKey) (s : Snapshot) : Rows := Function.update rows key (some s)

@[simp] theorem set_same (rows : Rows) (key : SessionKey) (s : Snapshot) : rows.set key s key = some s :=
  Function.update_self ..

theorem set_other (rows : Rows) {key other : SessionKey} (s : Snapshot) (h : other ≠ key) :
    rows.set key s other = rows other :=
  Function.update_of_ne h ..

/-- how a session is found by the current version of its practice -/
def find (rows : Rows) (key : SessionKey) (current : Nat) : LoadOutcome :=
  match rows key with
  | none => .fresh (.empty key.practice current)
  | some s => if s.version = current then .ready s else .resetRequired s.version current

end Rows

/-- a store that keeps a row for each session and does not fail -/
class Faithful (σ : Type) [Backend σ] where
  empty : σ
  Keeps : σ → Rows → Prop
  keeps_empty : Keeps empty .empty
  load {store : σ} {rows : Rows} (h : Keeps store rows) (key : SessionKey) (current : Nat) :
    Backend.load store key current = .ok (rows.find key current)
  save {store : σ} {rows : Rows} (h : Keeps store rows) {key : SessionKey} {s : Snapshot} (hs : Storable key s)
    (hversion : ∀ old, rows key = some old → old.version = s.version) :
    ∃ store', Backend.save store key s = (.ok (), store') ∧ Keeps store' (rows.set key s)
  reset {store : σ} {rows : Rows} (h : Keeps store rows) (key : SessionKey) (version : Nat) :
    ∃ store', Backend.reset store key version = (.ok (.empty key.practice version), store')
      ∧ Keeps store' (rows.set key (.empty key.practice version))

/-- a way to keep rows in which one session is kept; nothing is asked for the other sessions -/
structure Keeper {σ : Type} [Backend σ] (key : SessionKey) (K : σ → Rows → Prop) : Prop where
  load {store : σ} {rows : Rows} (h : K store rows) (current : Nat) :
    Backend.load store key current = .ok (rows.find key current)
  save {store : σ} {rows : Rows} (h : K store rows) {s : Snapshot} (hs : Storable key s)
    (hversion : ∀ old, rows key = some old → old.version = s.version) :
    ∃ store', Backend.save store key s = (.ok (), store') ∧ K store' (rows.set key s)
  reset {store : σ} {rows : Rows} (h : K store rows) (version : Nat) :
    ∃ store', Backend.reset store key version = (.ok (.empty key.practice version), store')
      ∧ K store' (rows.set key (.empty key.practice version))

theorem Faithful.keeper {σ : Type} [Backend σ] [Faithful σ] (key : SessionKey) :
    Keeper key (Faithful.Keeps : σ → Rows → Prop) :=
  ⟨fun h => Faithful.load h key, fun h => Faithful.save h, fun h => Faithful.reset h key⟩

/-! ## In memory -/

/-- tables of rows that are set together -/
theorem get?_insert_eq_set {α : Type} {t : KeyTable α} {rows : Rows} {f : Snapshot → α}
    (h : ∀ key, t.get? key = (rows key).map f) (key : SessionKey) (s : Snapshot) (other : SessionKey) :
    (t.insert key (f s)).get? other = (rows.set key s other).map f := by
  rw [KeyTable.get?_insert]
  by_cases hother : key = other
  · subst hother
    rw [if_pos rfl, Rows.set_same, Option.map_some]
  · rw [if_neg hother, Rows.set_other rows s (Ne.symm hother), h]

namespace MemoryStore

/-- each row is kept as it is -/
def Keeps (m : MemoryStore) (rows : Rows) : Prop := ∀ key, m.rows.get? key = (rows key).map id

variable {m : MemoryStore} {rows : Rows}

theorem Keeps.insert (h : Keeps m rows) (key : SessionKey) (s : Snapshot) :
    Keeps ⟨m.rows.insert key s⟩ (rows.set key s) :=
  get?_insert_eq_set h key s

theorem load_eq_find (h : Keeps m rows) (key : SessionKey) (current : Nat) :
    m.load key current = rows.find key current := by
  have hrow := h key
  rw [Option.map_id, id] at hrow
  rw [load, hrow]
  rfl

/-- a row of the same version is replaced -/
theorem save_of_version {key : SessionKey} {s : Snapshot}
    (hversion : ∀ old, m.rows.get? key = some old → old.version = s.version) :
    m.save key s = .ok ⟨m.rows.insert key s⟩ := by
  rw [save]
  cases hold : m.rows.get? key with
  | none => rfl
  | some old => exact if_pos (hversion old hold)

theorem save_eq_ok (h : Keeps m rows) {key : SessionKey} {s : Snapshot}
    (hversion : ∀ old, rows key = some old → old.version = s.version) : m.save key s = .ok ⟨m.rows.insert key s⟩ := by
  refine save_of_version (fun old hold => hversion old ?_)
  rw [h key, Option.map_id] at hold
  exact hold

end MemoryStore

instance : Faithful MemoryStore where
  empty := .empty
  Keeps := MemoryStore.Keeps
  keeps_empty _ := rfl
  load h key current := congrArg Except.ok (MemoryStore.load_eq_find h key current)
  save {m rows} h {key s} _ hversion := by
    refine ⟨_, ?_, MemoryStore.Keeps.insert h key s⟩
    simp only [Backend.save, MemoryStore.save_eq_ok h hversion]
  reset h key version := ⟨_, rfl, MemoryStore.Keeps.insert h key _⟩

/-! ## As texts -/

/-- a snapshot is read from the row that it was written as -/
theorem Row.snapshot_ofSnapshot {key : SessionKey} {s : Snapshot} (hs : Storable key s) :
    (Row.ofSnapshot s).snapshot key = .ok s := by
  have hhistory : Row.readHistory (Value.ofStrings s.history).compact = .ok s.history := by
    rw [readHistory, Json.parse?_compact (Json.Value.readable_ofStrings 126 s.history), Option.bind_some,
      Json.Value.listOf?_ofStrings]
  obtain ⟨practiceId, state, version, history⟩ := s
  obtain rfl : practiceId = key.practice := hs.practiceId
  cases state with
  | none =>
    simp only [snapshot, ofSnapshot, Option.map_none]
    simp only [hhistory]
    rfl
  | some r =>
    have hstate : Row.readState key r.toJson.compact = .ok r := by
      rw [readState, Repository.ofText_compact (hs.wellFormed r rfl) (hs.fitsWords r rfl)]
    simp only [snapshot, ofSnapshot, Option.map_some, hstate]
    simp only [hhistory]
    rfl

namespace Archive

/-- each row is written as texts, and can be read -/
structure Keeps (a : Archive) (rows : Rows) : Prop where
  row : ∀ key, a.rows.get? key = (rows key).map Row.ofSnapshot
  storable : ∀ key s, rows key = some s → Storable key s

variable {a : Archive} {rows : Rows}

theorem Keeps.insert (h : Keeps a rows) {key : SessionKey} {s : Snapshot} (hs : Storable key s) :
    Keeps ⟨a.rows.insert key (.ofSnapshot s)⟩ (rows.set key s) := by
  refine ⟨get?_insert_eq_set h.row key s, fun other t ht => ?_⟩
  by_cases hother : other = key
  · subst hother
    rw [Rows.set_same] at ht
    exact Option.some.inj ht ▸ hs
  · rw [Rows.set_other rows s hother] at ht
    exact h.storable other t ht

theorem load_eq_find (h : Keeps a rows) (key : SessionKey) (current : Nat) :
    a.load key current = .ok (rows.find key current) := by
  rw [load, h.row key, Rows.find]
  cases hrow : rows key with
  | none => rfl
  | some s =>
    rw [Option.map_some]
    dsimp only
    rw [Row.snapshot_ofSnapshot (h.storable key s hrow)]
    by_cases hversion : s.version = current
    · rw [if_pos hversion]
      exact if_pos hversion
    · rw [if_neg hversion]
      exact if_neg hversion

/-- a row of the same version is replaced -/
theorem save_of_version {key : SessionKey} {s : Snapshot}
    (hversion : ∀ row, a.rows.get? key = some row → row.version = s.version) :
    a.save key s = .ok ⟨a.rows.insert key (.ofSnapshot s)⟩ := by
  rw [save]
  cases hrow : a.rows.get? key with
  | none => rfl
  | some row => exact if_pos (hversion row hrow)

theorem save_eq_ok (h : Keeps a rows) {key : SessionKey} {s : Snapshot}
    (hversion : ∀ old, rows key = some old → old.version = s.version) :
    a.save key s = .ok ⟨a.rows.insert key (.ofSnapshot s)⟩ := by
  refine save_of_version (fun row hrow => ?_)
  rw [h.row key] at hrow
  obtain ⟨old, hold, rfl⟩ := Option.map_eq_some_iff.1 hrow
  exact hversion old hold

end Archive

instance : Faithful Archive where
  empty := .empty
  Keeps := Archive.Keeps
  keeps_empty := ⟨fun _ => rfl, fun _ _ h => by cases h⟩
  load := Archive.load_eq_find
  save {a rows} h {key s} hs hversion := by
    refine ⟨_, ?_, h.insert hs⟩
    simp only [Backend.save, Archive.save_eq_ok h hversion]
  reset h key version := ⟨_, rfl, h.insert (.empty key version)⟩

end RepoTutor.Store
