/-
An executor keeps every session as if it were alone.

For each session, an executor over a faithful store follows its progress (`Follows`): the row is what the progress would
store, the slot knows whether the session has halted, and a view in the slot is where the session is. Making room and
calls on other sessions do not disturb that (`Follows.openSlot`, `Follows.elsewhere`), since a slot that is given up has
not halted and is filled again from the row. A call on the session itself is answered as the progress answers it and
moves both on together (`perform_follows`); for that the store has to keep this one session only (`Keeper`). So after any
calls every session is where its own calls have led it (`run_tracks`).
-/
import RepoTutor.Proofs.Session.Halting
import RepoTutor.Proofs.Session.Progress
import RepoTutor.Proofs.Store.Faithful

namespace RepoTutor.Session

open Command Repo Transition Practice Store

namespace Executor

variable {σ α : Type}

/-! ## Slots -/

@[simp] theorem store_openSlot (e : Executor σ) (key : SessionKey) : (e.openSlot key).store = e.store := by
  unfold openSlot
  split <;> rfl

@[simp] theorem practices_openSlot (e : Executor σ) (key : SessionKey) : (e.openSlot key).practices = e.practices := by
  unfold openSlot
  split <;> rfl

/-- making room may give up the slot of a session that has not halted -/
theorem slot_openSlot (e : Executor σ) (key other : SessionKey) :
    (e.openSlot key).slot other = e.slot other ∨ ((e.slot other).halted = none ∧ (e.openSlot key).slot other = {}) := by
  unfold openSlot
  split
  · exact Or.inl rfl
  · rename_i hnew
    have hnone : e.slots.get? key = none := by simpa [KeyTable.contains] using hnew
    by_cases hkey : key = other
    · subst hkey
      exact Or.inl (by simp [slot, hnone])
    · simp only [slot, KeyTable.get?_insert, if_neg hkey]
      split
      · simp only [evictIdle, KeyTable.get?_filter]
        cases hslot : e.slots.get? other with
        | none => exact Or.inl rfl
        | some s =>
          cases hhalted : s.halted with
          | none => exact Or.inr ⟨hhalted, by simp [Option.filter, hhalted]⟩
          | some reason => exact Or.inl (by simp [Option.filter, hhalted])
      · exact Or.inl rfl

theorem slot_setSlot_of_ne (e : Executor σ) {key other : SessionKey} (s : Slot) (h : other ≠ key) :
    (e.setSlot key s).slot other = e.slot other := by
  simp [slot, setSlot, Ne.symm h]

theorem practice?_congr {e e' : Executor σ} (h : e'.practices = e.practices) (id : String) :
    e'.practice? id = e.practice? id := by
  rw [practice?, practice?, h]

/-- an executor with another store and another slot of one session -/
structure Touches (key : SessionKey) (e e' : Executor σ) : Prop where
  practices : e'.practices = e.practices
  slot : ∀ other ≠ key, e'.slot other = e.slot other

namespace Touches

variable {key : SessionKey} {e e' e'' : Executor σ}

theorem refl (key : SessionKey) (e : Executor σ) : Touches key e e := ⟨rfl, fun _ _ => rfl⟩

theorem trans (h : Touches key e e') (h' : Touches key e' e'') : Touches key e e'' :=
  ⟨h'.practices.trans h.practices, fun other hother => (h'.slot other hother).trans (h.slot other hother)⟩

theorem setSlot (h : Touches key e e') (s : Slot) : Touches key e (e'.setSlot key s) :=
  ⟨h.practices, fun other hother => (slot_setSlot_of_ne e' s hother).trans (h.slot other hother)⟩

theorem withStore (h : Touches key e e') (store : σ) : Touches key e { e' with store := store } :=
  ⟨h.practices, h.slot⟩

end Touches

end Executor

open Executor

variable {σ α : Type}

/-! ## Following a session -/

/-- an executor whose store has these rows keeps a session as its progress tells -/
structure Follows (e : Executor σ) (rows : Rows) (p : Compiled) (key : SessionKey) (g : Progress) : Prop where
  row : (rows key = none ∧ g.history = []) ∨ rows key = some (g.snapshot p key)
  halted : (e.slot key).halted = g.halted
  view : ∀ l, (e.slot key).view = some l → l = g.loaded p

namespace Follows

variable {e e' : Executor σ} {rows rows' : Rows} {p : Compiled} {key : SessionKey} {g : Progress}

/-- an empty slot follows as well, unless the session has halted -/
theorem of_slot (h : Follows e rows p key g)
    (hslot : e'.slot key = e.slot key ∨ ((e.slot key).halted = none ∧ e'.slot key = {})) : Follows e' rows p key g := by
  rcases hslot with hslot | ⟨hnone, hslot⟩
  · exact ⟨h.row, by rw [hslot]; exact h.halted, fun l hl => h.view l (by rw [← hslot]; exact hl)⟩
  · refine ⟨h.row, ?_, fun l hl => ?_⟩
    · rw [hslot, ← h.halted, hnone]
    · rw [hslot] at hl
      cases hl

theorem openSlot (h : Follows e rows p key g) (other : SessionKey) : Follows (e.openSlot other) rows p key g :=
  h.of_slot (slot_openSlot e other key)

/-- a session is left alone by what happens to another one -/
theorem elsewhere {other : SessionKey} (h : Follows e rows p key g) (htouches : Touches other e e') (hkey : key ≠ other)
    (hrows : rows' key = rows key) : Follows e' rows' p key g := by
  have hfollows := h.of_slot (Or.inl (htouches.slot key hkey))
  exact ⟨by rw [hrows]; exact hfollows.row, hfollows.halted, hfollows.view⟩

/-- a row is of the practice's version -/
theorem version_eq (h : Follows e rows p key g) {old : Snapshot} (hold : rows key = some old) :
    old.version = p.version := by
  rcases h.row with ⟨hnone, -⟩ | hrow
  · rw [hnone] at hold
    cases hold
  · rw [hrow] at hold
    exact (Option.some.inj hold) ▸ rfl

/-- what is found in the store is where the session is -/
theorem find_row (h : Follows e rows p key g) (hsound : g.Sound p) :
    ∃ s, (rows.find key p.version).snapshot key = .ok s ∧ loadedFrom p s = g.loaded p := by
  rcases h.row with ⟨hnone, hhistory⟩ | hrow
  · refine ⟨.empty key.practice p.version, by rw [Rows.find, hnone]; rfl, ?_⟩
    rw [Progress.loaded, hsound.state_eq hhistory, hhistory]
    rfl
  · refine ⟨g.snapshot p key, by rw [Rows.find, hrow]; exact congrArg (LoadOutcome.snapshot key) (if_pos rfl), ?_⟩
    by_cases hhistory : g.history = []
    · simp [loadedFrom, Progress.snapshot, Progress.loaded, hhistory, hsound.state_eq hhistory]
    · simp [loadedFrom, Progress.snapshot, Progress.loaded, hhistory]

end Follows

variable [Backend σ]

/-! ## Loading -/

section Loading

variable {K : σ → Rows → Prop}

theorem store_ensureLoaded (e : Executor σ) (p : Compiled) (key : SessionKey) :
    (e.ensureLoaded p key).2.store = e.store := by
  unfold ensureLoaded
  dsimp only
  split
  · rfl
  · rfl
  · split
    · rfl
    · rfl
    · split <;> rfl

/-- a session that has not halted is loaded to where it is -/
theorem ensureLoaded_follows {e : Executor σ} {rows : Rows} {p : Compiled} {key : SessionKey} {g : Progress}
    (hkeeper : Keeper key K) (hkeeps : K e.store rows) (h : Follows e rows p key g) (hsound : g.Sound p)
    (hhalted : g.halted = none) :
    ∃ e', e.ensureLoaded p key = (.ok (g.loaded p), e') ∧ e'.store = e.store ∧ Touches key e e'
      ∧ Follows e' rows p key g := by
  have hnone : (e.slot key).halted = none := h.halted.trans hhalted
  unfold ensureLoaded
  simp only [hnone]
  cases hview : (e.slot key).view with
  | some l => exact ⟨e, by rw [h.view l hview], rfl, .refl key e, h⟩
  | none =>
    obtain ⟨s, hfind, hloaded⟩ := h.find_row hsound
    simp only [hkeeper.load hkeeps, hfind, hloaded]
    refine ⟨_, rfl, rfl, (Touches.refl key e).setSlot _, h.row, ?_, fun l hl => ?_⟩
    · rw [slot_setSlot]
      exact hhalted.symm
    · rw [slot_setSlot] at hl
      exact (Option.some.inj hl).symm

theorem ensureLoaded_of_halted {e : Executor σ} {p : Compiled} {key : SessionKey} {reason : String}
    (h : (e.slot key).halted = some reason) : e.ensureLoaded p key = (.error (.halted key reason), e) := by
  unfold ensureLoaded
  simp only [h]

/-- saving goes on until the store has the row -/
theorem persist_keeps {store : σ} {rows : Rows} {key : SessionKey} (hkeeper : Keeper key K) (hkeeps : K store rows)
    {s : Snapshot} (hs : Storable key s) (hversion : ∀ old, rows key = some old → old.version = s.version)
    (again : Nat) : ∃ store', persist key s again store = (.ok (), store') ∧ K store' (rows.set key s) := by
  obtain ⟨store', hsave, hkeeps'⟩ := hkeeper.save hkeeps hs hversion
  refine ⟨store', ?_, hkeeps'⟩
  unfold persist
  rw [hsave]

end Loading

/-! ## Calls -/

/-- an executor has gone on to another one, in one session only; `K` tells which rows its store keeps -/
def Advances (K : σ → Rows → Prop) (e : Executor σ) (rows : Rows) (p : Compiled) (key : SessionKey) (e' : Executor σ)
    (g : Progress) : Prop :=
  ∃ rows', K e'.store rows' ∧ (∀ other ≠ key, rows' other = rows other) ∧ Touches key e e'
    ∧ Follows e' rows' p key g

section Calls

variable {K : σ → Rows → Prop} {e : Executor σ} {rows : Rows} {p : Compiled} {key : SessionKey} {g : Progress}

omit [Backend σ] in
/-- nothing is written -/
theorem Advances.of_follows {e' : Executor σ} (hkeeps : K e'.store rows) (htouches : Touches key e e')
    (h : Follows e' rows p key g) : Advances K e rows p key e' g :=
  ⟨rows, hkeeps, fun _ _ => rfl, htouches, h⟩

omit [Backend σ] in
/-- the session's row and slot are written -/
theorem Advances.of_write {e' : Executor σ} (htouches : Touches key e e') {store : σ} {s : Slot}
    (hkeeps : K store (rows.set key (g.snapshot p key))) (hhalted : s.halted = g.halted)
    (hview : s.view = some (g.loaded p)) :
    Advances K e rows p key ({ e' with store := store }.setSlot key s) g := by
  refine ⟨_, hkeeps, fun other hother => Rows.set_other rows _ hother, (htouches.withStore store).setSlot s,
    Or.inr (Rows.set_same ..), ?_, fun l hl => ?_⟩
  · rw [slot_setSlot]
    exact hhalted
  · rw [slot_setSlot, hview] at hl
    exact (Option.some.inj hl).symm

variable (hkeeper : Keeper key K) (hkeeps : K e.store rows) (hpractice : e.practice? key.practice = some p)
  (h : Follows e rows p key g) (hsound : g.Sound p)

include hkeeper hkeeps hpractice h hsound

/-- a call on a session is made where the session is, unless it has halted -/
theorem onSession_follows {call : Executor σ → Compiled → Loaded → Reply σ α} {result : Progress.Result α}
    (hcall : ∀ e', K e'.store rows → Touches key (e.openSlot key) e' → Follows e' rows p key g →
      g.halted = none → (call e' p (g.loaded p)).answer = result.1
        ∧ Advances K (e.openSlot key) rows p key (call e' p (g.loaded p)).executor result.2) :
    (e.onSession key call).answer = (g.unlessHalted key result).1
      ∧ Advances K (e.openSlot key) rows p key (e.onSession key call).executor (g.unlessHalted key result).2 := by
  have hopen := h.openSlot key
  have hkeeps : K (e.openSlot key).store rows := by rw [store_openSlot]; exact hkeeps
  unfold onSession Progress.unlessHalted
  simp only [hpractice]
  cases hhalted : g.halted with
  | some reason =>
    rw [ensureLoaded_of_halted (hopen.halted.trans hhalted)]
    exact ⟨rfl, .of_follows hkeeps (.refl _ _) hopen⟩
  | none =>
    obtain ⟨e', hload, hstore, htouches, hfollows⟩ := ensureLoaded_follows hkeeper hkeeps hopen hsound hhalted
    rw [hload]
    exact hcall e' (hstore ▸ hkeeps) htouches hfollows hhalted

theorem execute_follows {text : String}
    (hstorable : Storable key ((g.perform p key (.execute text)).2.snapshot p key)) :
    (e.execute key text).answer = (g.perform p key (.execute text)).1
      ∧ Advances K (e.openSlot key) rows p key (e.execute key text).executor (g.perform p key (.execute text)).2 := by
  refine onSession_follows hkeeper hkeeps hpractice h hsound (fun e' hkeeps' htouches hfollows hhalted => ?_)
  have hperform : g.perform p key (.execute text) = g.execute text := by
    simp only [Progress.perform, Progress.unlessHalted, hhalted]
  rw [hperform] at hstorable
  dsimp only [Progress.loaded]
  rcases g.execute_cases text with
    ⟨cause, hparse, hresult⟩ | ⟨op, hparse, ⟨cause, happly, hcause, hresult⟩ | ⟨v, happly, hresult⟩ | ⟨o, happly, hresult⟩⟩
  · rw [hparse, hresult]
    exact ⟨rfl, .of_follows hkeeps' htouches hfollows⟩
  · rw [hparse, hresult]
    dsimp only
    rw [happly]
    cases cause with
    | invariant v => cases hcause
    | _ => exact ⟨rfl, .of_follows hkeeps' htouches hfollows⟩
  · rw [hparse, hresult]
    dsimp only
    rw [happly]
    have hslot := slot_setSlot e' key { e'.slot key with halted := some v.message }
    refine ⟨rfl, .of_follows hkeeps' (htouches.setSlot _) ⟨hfollows.row, ?_, fun l hl => ?_⟩⟩
    · exact congrArg Slot.halted hslot
    · exact hfollows.view l ((congrArg Slot.view hslot).symm.trans hl)
  · have hsnapshot : Progress.snapshot { g with state := o.state, history := g.history ++ [Text.trim text] } p key =
        ⟨key.practice, some o.state, p.version, g.history ++ [Text.trim text]⟩ := by
      simp [Progress.snapshot]
    rw [hresult, hsnapshot] at hstorable
    obtain ⟨store', hpersist, hkept⟩ := persist_keeps hkeeper hkeeps' hstorable (fun old hold => h.version_eq hold)
      (e'.saveAttempts - 1)
    rw [hparse, hresult]
    dsimp only
    rw [happly]
    dsimp only
    rw [hpersist]
    exact ⟨rfl, .of_write htouches (hsnapshot ▸ hkept) hfollows.halted rfl⟩

omit h hsound in
theorem reset_follows :
    (e.reset key).answer = .ok (viewOf key ((Progress.start p).loaded p))
      ∧ Advances K (e.openSlot key) rows p key (e.reset key).executor (Progress.start p) := by
  have hkeeps : K (e.openSlot key).store rows := by rw [store_openSlot]; exact hkeeps
  obtain ⟨store', hreset, hkept⟩ := hkeeper.reset hkeeps p.version
  unfold Executor.reset
  simp only [hpractice, hreset]
  exact ⟨rfl, .of_write (.refl _ _) hkept rfl rfl⟩

/-- **A call is answered as its session by itself answers it**, and the session goes on as it does by itself -/
theorem perform_follows {q : Request} (hstorable : Storable key ((g.perform p key q).2.snapshot p key)) :
    (e.perform key q).answer = (g.perform p key q).1
      ∧ Advances K (e.openSlot key) rows p key (e.perform key q).executor (g.perform p key q).2 := by
  cases q with
  | execute text => exact execute_follows hkeeper hkeeps hpractice h hsound hstorable
  | validate =>
    refine onSession_follows hkeeper hkeeps hpractice h hsound (fun e' hkeeps' htouches hfollows _ => ?_)
    exact ⟨rfl, .of_follows hkeeps' htouches hfollows⟩
  | state =>
    refine onSession_follows hkeeper hkeeps hpractice h hsound (fun e' hkeeps' htouches hfollows _ => ?_)
    exact ⟨rfl, .of_follows hkeeps' htouches hfollows⟩
  | reset => exact reset_follows hkeeper hkeeps hpractice

end Calls

/-! ## Runs -/

variable [Faithful σ]

/-- every session is where its own calls have led it -/
def Tracks (e : Executor σ) (calls : List Call) : Prop :=
  ∃ rows, Faithful.Keeps e.store rows ∧
    ∀ key p, e.practice? key.practice = some p → Follows e rows p key (.ofCalls p key calls)

/-- practices that are worked on start where operations lead to -/
def Startable (e : Executor σ) : Prop := ∀ id p, e.practice? id = some p → Reachable p.initial

omit [Backend σ] [Faithful σ] in
theorem Startable.congr {e e' : Executor σ} (h : Startable e) (hpractices : e'.practices = e.practices) : Startable e' :=
  fun id p hp => h id p (practice?_congr hpractices id ▸ hp)

/-- what the calls on a session lead to can be stored -/
theorem Progress.ofCalls_storable {p : Compiled} (hreach : Reachable p.initial) (key : SessionKey) (calls : List Call) :
    Storable key ((ofCalls p key calls).snapshot p key) := by
  have hstate : Reachable (ofCalls p key calls).state := replay_reachable hreach (ofCalls_sound p key calls)
  have hsome : ∀ r, (if (ofCalls p key calls).history = [] then none else some (ofCalls p key calls).state) = some r →
      (ofCalls p key calls).state = r := by
    intro r hr
    split at hr
    · cases hr
    · exact Option.some.inj hr
  exact ⟨rfl, fun r hr => hsome r hr ▸ hstate.wellFormed, fun r hr => hsome r hr ▸ hstate.fitsWords⟩

section Runs

variable {e : Executor σ} {calls : List Call}

omit [Faithful σ] in
/-- a practice that is not known changes nothing -/
theorem perform_unknown {key : SessionKey} (hp : e.practice? key.practice = none) (q : Request) :
    (e.perform key q).answer = .error (.unknownPractice key.practice) ∧ (e.perform key q).executor = e := by
  cases q <;>
    simp [perform, Executor.execute, Executor.validate, Executor.state, Executor.reset, onSession, hp, fail]

namespace Tracks

/-- a call is answered as its session by itself answers it, and every session goes on by itself -/
theorem perform (h : Tracks e calls) {key : SessionKey} {p : Compiled} (hp : e.practice? key.practice = some p)
    {q : Request} (hstorable : Storable key (((Progress.ofCalls p key calls).perform p key q).2.snapshot p key)) :
    (e.perform key q).answer = ((Progress.ofCalls p key calls).perform p key q).1
      ∧ (e.after ⟨key, q⟩).practices = e.practices ∧ Tracks (e.after ⟨key, q⟩) (calls ++ [⟨key, q⟩]) := by
  obtain ⟨rows, hkeeps, hfollows⟩ := h
  obtain ⟨hanswer, rows', hkeeps', hrows, htouches, hfollows'⟩ :=
    perform_follows (Faithful.keeper key) hkeeps hp (hfollows key p hp) (Progress.ofCalls_sound p key calls) hstorable
  have hpractices : (e.after ⟨key, q⟩).practices = e.practices := htouches.practices.trans (practices_openSlot e key)
  refine ⟨hanswer, hpractices, rows', hkeeps', fun other p' hp' => ?_⟩
  rw [practice?_congr hpractices] at hp'
  by_cases hother : other = key
  · subst hother
    rw [hp] at hp'
    cases hp'
    rw [Progress.ofCalls_snoc, Progress.after, if_pos rfl]
    exact hfollows'
  · rw [Progress.ofCalls_snoc, Progress.after, if_neg (Ne.symm hother)]
    exact ((hfollows other p' hp').openSlot key).elsewhere htouches hother (hrows other hother)

theorem answer_of_reads (h : Tracks e calls) (hstarts : Startable e) {key : SessionKey} {p : Compiled}
    (hp : e.practice? key.practice = some p) {q : Request} (hq : q.writes = false) :
    (e.perform key q).answer = ((Progress.ofCalls p key calls).perform p key q).1 := by
  refine (h.perform hp ?_).1
  rw [Progress.perform_of_reads _ p key hq]
  exact Progress.ofCalls_storable (hstarts _ p hp) key calls

theorem answer (h : Tracks e calls) (hstarts : Startable e) {key : SessionKey} {p : Compiled}
    (hp : e.practice? key.practice = some p) (q : Request) :
    (e.perform key q).answer = ((Progress.ofCalls p key calls).perform p key q).1
      ∧ (e.after ⟨key, q⟩).practices = e.practices ∧ Tracks (e.after ⟨key, q⟩) (calls ++ [⟨key, q⟩]) := by
  refine h.perform hp ?_
  have hstorable := Progress.ofCalls_storable (hstarts _ p hp) key (calls ++ [⟨key, q⟩])
  rw [Progress.ofCalls_snoc, Progress.after, if_pos rfl] at hstorable
  exact hstorable

theorem after (h : Tracks e calls) (hstarts : Startable e) (c : Call) :
    (e.after c).practices = e.practices ∧ Tracks (e.after c) (calls ++ [c]) := by
  cases hp : e.practice? c.key.practice with
  | some p => exact (h.answer hstarts hp c.request).2
  | none =>
    have hsame : e.after c = e := (perform_unknown hp c.request).2
    rw [hsame]
    obtain ⟨rows, hkeeps, hfollows⟩ := h
    refine ⟨rfl, rows, hkeeps, fun other p' hp' => ?_⟩
    have hother : c.key ≠ other := by
      rintro rfl
      rw [hp] at hp'
      cases hp'
    rw [Progress.ofCalls_snoc, Progress.after, if_neg hother]
    exact hfollows other p' hp'

end Tracks

/-- **After any calls every session is where its own calls have led it.** -/
theorem run_tracks (h : Tracks e []) (hstarts : Startable e) (calls : List Call) :
    (e.run calls).practices = e.practices ∧ Tracks (e.run calls) calls := by
  induction calls using List.reverseRecOn with
  | nil => exact ⟨rfl, h⟩
  | append_singleton calls c ih =>
    obtain ⟨hpractices, htracks⟩ := ih
    obtain ⟨hpractices', htracks'⟩ := htracks.after (hstarts.congr hpractices) c
    rw [run_snoc]
    exact ⟨hpractices'.trans hpractices, htracks'⟩

end Runs

/-! ## Empty stores -/

/-- an executor over an empty store, of any capacity and patience -/
def Executor.onEmptyStore (σ : Type) [Backend σ] [Faithful σ] (practices : List Compiled) (capacity saveAttempts : Nat) :
    Executor σ :=
  ((Executor.new Faithful.empty practices).withCapacity capacity).withSaveAttempts saveAttempts

section EmptyStores

variable {practices : List Compiled} {capacity saveAttempts : Nat}

theorem practice?_onEmptyStore {id : String} {p : Compiled}
    (hp : (onEmptyStore σ practices capacity saveAttempts).practice? id = some p) : p ∈ practices := by
  have hmem := Table.mem_of_get?_ofList hp
  obtain ⟨p', hp', heq⟩ := List.mem_map.1 hmem
  cases heq
  exact hp'

theorem onEmptyStore_tracks : Tracks (onEmptyStore σ practices capacity saveAttempts) [] :=
  ⟨.empty, Faithful.keeps_empty, fun _ _ _ => ⟨Or.inl ⟨rfl, rfl⟩, rfl, fun _ hl => by cases hl⟩⟩

/-- compiled practices can be worked on -/
theorem onEmptyStore_startable (σ : Type) [Backend σ] [Faithful σ] (capacity saveAttempts : Nat)
    (hcompiled : ∀ p ∈ practices, ∃ d : Definition, d.compile = .ok p) :
    Startable (onEmptyStore σ practices capacity saveAttempts) := by
  intro id p hp
  obtain ⟨d, hd⟩ := hcompiled p (practice?_onEmptyStore hp)
  exact compile_reachable hd

/-- what a call is answered depends on the calls on its session only -/
theorem answer_onEmptyStore (hcompiled : ∀ p ∈ practices, ∃ d : Definition, d.compile = .ok p) (calls : List Call)
    (key : SessionKey) (q : Request) :
    (((onEmptyStore σ practices capacity saveAttempts).run calls).perform key q).answer =
      match (Table.ofList (practices.map (fun p => (p.id, p)))).get? key.practice with
      | none => .error (.unknownPractice key.practice)
      | some p => ((Progress.ofCalls p key calls).perform p key q).1 := by
  have hstarts := onEmptyStore_startable σ capacity saveAttempts hcompiled
  obtain ⟨hpractices, htracks⟩ := run_tracks onEmptyStore_tracks hstarts calls
  have hlookup := practice?_congr hpractices key.practice
  cases hp : (Table.ofList (practices.map (fun p => (p.id, p)))).get? key.practice with
  | none => exact (perform_unknown (hlookup.trans hp) q).1
  | some p => exact (htracks.answer (hstarts.congr hpractices) (hlookup.trans hp) q).1

end EmptyStores

end RepoTutor.Session
