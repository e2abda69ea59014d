/-
Stores as places, one for each session, whatever the places hold.

A row need not be one that a session has written: its text may be damaged, or its version may be another one than the
practice has now. Of a store with places (`Placed`) it is said what a call finds and makes of the place of its session,
and that it leaves the other places alone. So a store keeps one session as a faithful store does as soon as that session's
place is empty or holds a snapshot that can be stored, no matter what the other places hold (`keeper_keepsAt`).
-/
import RepoTutor.Proofs.Store.Faithful

namespace RepoTutor.Store

open Repo

/-- a store with a place for each session, in which it keeps a value of `ρ` -/
class Placed (σ : Type) (ρ : outParam Type) [Backend σ] where
  place : σ → SessionKey → Option ρ
  version : ρ → Nat
  /-- what a snapshot is kept as -/
  encode : Snapshot → ρ
  version_encode (s : Snapshot) : version (encode s) = s.version
  load_empty {store : σ} {key : SessionKey} (h : place store key = none) (current : Nat) :
    Backend.load store key current = .ok (.fresh (.empty key.practice current))
  load_encode {store : σ} {key : SessionKey} {s : Snapshot} (h : place store key = some (encode s))
    (hs : Storable key s) : Backend.load store key s.version = .ok (.ready s)
  load_stale {store : σ} {key : SessionKey} {row : ρ} (h : place store key = some row) {current : Nat}
    (hversion : version row ≠ current) : Backend.load store key current = .ok (.resetRequired (version row) current)
  save_same {store : σ} {key : SessionKey} {s : Snapshot}
    (hversion : ∀ row, place store key = some row → version row = s.version) :
    ∃ store', Backend.save store key s = (.ok (), store') ∧ place store' key = some (encode s)
  save_elsewhere (store : σ) {key other : SessionKey} (s : Snapshot) (h : other ≠ key) :
    place (Backend.save store key s).2 other = place store other
  reset_same (store : σ) (key : SessionKey) (version : Nat) :
    ∃ store', Backend.reset store key version = (.ok (.empty key.practice version), store')
      ∧ place store' key = some (encode (.empty key.practice version))
  reset_elsewhere (store : σ) {key other : SessionKey} (version : Nat) (h : other ≠ key) :
    place (Backend.reset store key version).2 other = place store other

/-! ## Both stores -/

theorem KeyTable.get?_insert_of_ne {α : Type} (t : KeyTable α) {key other : SessionKey} (row : α) (h : other ≠ key) :
    (t.insert key row).get? other = t.get? other := by
  rw [get?_insert, if_neg (Ne.symm h)]

instance : Placed MemoryStore Snapshot where
  place m key := m.rows.get? key
  version := Snapshot.version
  encode := id
  version_encode _ := rfl
  load_empty h current := by simp only [Backend.load, MemoryStore.load, h]
  load_encode h _ := by simp only [Backend.load, MemoryStore.load, h, id, if_true]
  load_stale {store key row} h {current} hversion := by simp only [Backend.load, MemoryStore.load, h, if_neg hversion]
  save_same {m key s} hversion :=
    ⟨⟨m.rows.insert key s⟩, by simp only [Backend.save, MemoryStore.save_of_version hversion],
      (KeyTable.get?_insert ..).trans (if_pos rfl)⟩
  save_elsewhere m {key other} s h := by
    simp only [Backend.save, MemoryStore.save]
    cases m.rows.get? key with
    | none => exact m.rows.get?_insert_of_ne s h
    | some old =>
      dsimp only
      split_ifs
      · exact m.rows.get?_insert_of_ne s h
      · rfl
  reset_same m key version := ⟨_, rfl, by simp [MemoryStore.reset]⟩
  reset_elsewhere m _ _ _ h := m.rows.get?_insert_of_ne _ h

instance : Placed Archive Row where
  place a key := a.rows.get? key
  version := Row.version
  encode := Row.ofSnapshot
  version_encode _ := rfl
  load_empty h current := by simp only [Backend.load, Archive.load, h]
  load_encode {a key s} h hs := by
    simp only [Backend.load, Archive.load, h]
    rw [if_pos (show (Row.ofSnapshot s).version = s.version from rfl), Row.snapshot_ofSnapshot hs]
    rfl
  load_stale {store key row} h {current} hversion := by simp only [Backend.load, Archive.load, h, if_neg hversion]
  save_same {a key s} hversion :=
    ⟨⟨a.rows.insert key (.ofSnapshot s)⟩, by simp only [Backend.save, Archive.save_of_version hversion],
      (KeyTable.get?_insert ..).trans (if_pos rfl)⟩
  save_elsewhere a {key other} s h := by
    simp only [Backend.save, Archive.save]
    cases a.rows.get? key with
    | none => exact a.rows.get?_insert_of_ne _ h
    | some old =>
      dsimp only
      split_ifs
      · exact a.rows.get?_insert_of_ne _ h
      · rfl
  reset_same a key version := ⟨_, rfl, by simp [Archive.reset]; rfl⟩
  reset_elsewhere a _ _ _ h := a.rows.get?_insert_of_ne _ h

/-! ## Keeping one session -/

variable {σ ρ : Type} [Backend σ] [Placed σ ρ] {key : SessionKey}

open Placed

/-- the place of a session holds its row, and the row can be stored -/
structure KeepsAt (key : SessionKey) (store : σ) (rows : Rows) : Prop where
  place : place store key = (rows key).map (encode σ)
  storable : ∀ s, rows key = some s → Storable key s

theorem KeepsAt.of_set {store : σ} {s : Snapshot} (h : Placed.place store key = some (encode σ s)) (hs : Storable key s)
    (rows : Rows) : KeepsAt key store (rows.set key s) := by
  refine ⟨by rw [h, Rows.set_same, Option.map_some], fun t ht => ?_⟩
  rw [Rows.set_same] at ht
  exact Option.some.inj ht ▸ hs

theorem keeper_keepsAt (key : SessionKey) : Keeper key (KeepsAt key : σ → Rows → Prop) where
  load {store rows} h current := by
    have hplace := h.place
    rw [Rows.find]
    cases hrow : rows key with
    | none =>
      rw [hrow, Option.map_none] at hplace
      exact load_empty hplace current
    | some s =>
      rw [hrow, Option.map_some] at hplace
      dsimp only
      by_cases hversion : s.version = current
      · subst hversion
        rw [if_pos rfl]
        exact load_encode hplace (h.storable s hrow)
      · rw [if_neg hversion]
        have hother : version σ (encode σ s) ≠ current := fun h => hversion ((version_encode s).symm.trans h)
        rw [load_stale hplace hother, version_encode]
  save {store rows} h {s} hs hversion := by
    have hsame : ∀ row, Placed.place store key = some row → version σ row = s.version := by
      intro row hrow
      rw [h.place] at hrow
      obtain ⟨old, hold, rfl⟩ := Option.map_eq_some_iff.1 hrow
      exact (version_encode old).trans (hversion old hold)
    obtain ⟨store', hsave, hplace⟩ := save_same hsame
    exact ⟨store', hsave, .of_set hplace hs rows⟩
  reset {store rows} _ version := by
    obtain ⟨store', hreset, hplace⟩ := reset_same store key version
    exact ⟨store', hreset, .of_set hplace (.empty key version) rows⟩

end RepoTutor.Store
