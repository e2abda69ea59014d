/-
Progress of another version of a practice is never overwritten.

A row that was written for another version of its practice stays where it is until its learner asks for a reset. As long
as it is there, every other call on the session fails with both versions, and nothing of the session is kept in its slot
(`Stale.perform`), so neither further calls, nor calls on other sessions, nor slots that are given up can lead to the row
being replaced (`Stale.run`). A reset puts an empty snapshot of the practice's version in its place, and from there the
session is served as one that was never used (`Serves`), in any store with places and whatever the other places hold.
-/
import RepoTutor.Proofs.Session.Tracking
import RepoTutor.Proofs.Store.Places

namespace RepoTutor.Session

open Command Repo Transition Practice Store Executor Placed

variable {σ ρ α : Type} [Backend σ] [Placed σ ρ]

/-! ## Calls on other sessions -/

/-- saving one session leaves the places of the others alone, however often it is tried -/
theorem place_persist {key other : SessionKey} {s : Snapshot} {again : Nat} {store store' : σ}
    {answer : Except StoreError Unit} (hpersist : persist key s again store = (answer, store')) (h : other ≠ key) :
    place store' other = place store other := by
  have hsave := save_elsewhere store s h
  unfold persist at hpersist
  split at hpersist
  · rename_i hfirst
    cases hpersist
    rwa [hfirst] at hsave
  · rename_i hfirst
    cases hpersist
    rwa [hfirst] at hsave
  · rename_i hfirst
    rw [hfirst] at hsave
    cases again with
    | zero =>
      cases hpersist
      exact hsave
    | succ again => exact (place_persist hpersist h).trans hsave

/-- what a call on one session leaves of the other sessions -/
structure Spares (key : SessionKey) (e e' : Executor σ) : Prop where
  touches : Touches key e e'
  place : ∀ other ≠ key, place e'.store other = place e.store other

namespace Spares

variable {key : SessionKey} {e e' : Executor σ}

theorem refl (key : SessionKey) (e : Executor σ) : Spares key e e := ⟨.refl key e, fun _ _ => rfl⟩

theorem setSlot (h : Spares key e e') (s : Slot) : Spares key e (e'.setSlot key s) := ⟨h.touches.setSlot s, h.place⟩

theorem withStore (h : Spares key e e') {store : σ}
    (hstore : ∀ other ≠ key, Placed.place store other = Placed.place e'.store other) :
    Spares key e { e' with store := store } :=
  ⟨h.touches.withStore store, fun other hother => (hstore other hother).trans (h.place other hother)⟩

end Spares

section Sparing

variable {e : Executor σ} {p : Compiled} {key : SessionKey}

theorem ensureLoaded_spares (e : Executor σ) (p : Compiled) (key : SessionKey) :
    Spares key e (e.ensureLoaded p key).2 := by
  unfold ensureLoaded
  dsimp only
  split
  · exact .refl key e
  · exact .refl key e
  · split
    · exact (Spares.refl key e).setSlot _
    · exact .refl key e
    · split
      · exact .refl key e
      · exact (Spares.refl key e).setSlot _

/-- a call spares the other sessions if it does so once its own session is loaded -/
theorem onSession_spares (hp : e.practice? key.practice = some p)
    {call : Executor σ → Compiled → Loaded → Reply σ α}
    (hcall : ∀ e' l, Spares key (e.openSlot key) e' → Spares key (e.openSlot key) (call e' p l).executor) :
    Spares key (e.openSlot key) (e.onSession key call).executor := by
  have hload := ensureLoaded_spares (e.openSlot key) p key
  unfold onSession
  simp only [hp]
  split
  · rename_i cause e' heq
    rwa [heq] at hload
  · rename_i l e' heq
    rw [heq] at hload
    exact hcall e' l hload

theorem execute_spares (hp : e.practice? key.practice = some p) (text : String) :
    Spares key (e.openSlot key) (e.execute key text).executor := by
  refine onSession_spares hp (fun e' l h => ?_)
  dsimp only
  split
  · exact h
  · split
    · exact h.setSlot _
    · exact h
    · split
      · rename_i hpersist
        exact h.withStore (fun other hother => place_persist hpersist hother)
      · rename_i hpersist
        exact (h.withStore (fun other hother => place_persist hpersist hother)).setSlot _

theorem reset_spares (hp : e.practice? key.practice = some p) :
    Spares key (e.openSlot key) (e.reset key).executor := by
  have hstore := fun other (hother : other ≠ key) => reset_elsewhere (e.openSlot key).store p.version hother
  unfold Executor.reset
  simp only [hp]
  split
  · rename_i heq
    rw [heq] at hstore
    exact (Spares.refl key _).withStore hstore
  · rename_i heq
    rw [heq] at hstore
    exact ((Spares.refl key _).withStore hstore).setSlot _

theorem perform_spares (hp : e.practice? key.practice = some p) (q : Request) :
    Spares key (e.openSlot key) (e.perform key q).executor := by
  cases q with
  | execute text => exact execute_spares hp text
  | validate => exact onSession_spares hp (fun e' l h => h)
  | state => exact onSession_spares hp (fun e' l h => h)
  | reset => exact reset_spares hp

end Sparing

/-- a session after a call on another one: its place is the same, and so is its slot unless that was given up -/
structure Untouched (key : SessionKey) (e e' : Executor σ) : Prop where
  practices : e'.practices = e.practices
  place : place e'.store key = place e.store key
  slot : e'.slot key = e.slot key ∨ ((e.slot key).halted = none ∧ e'.slot key = {})

theorem after_untouched (e : Executor σ) {c : Call} {key : SessionKey} (h : c.key ≠ key) :
    Untouched key e (e.after c) := by
  cases hp : e.practice? c.key.practice with
  | none =>
    have hsame : e.after c = e := (perform_unknown hp c.request).2
    rw [hsame]
    exact ⟨rfl, rfl, Or.inl rfl⟩
  | some p =>
    obtain ⟨htouches, hplace⟩ := perform_spares hp c.request
    refine ⟨htouches.practices.trans (practices_openSlot e c.key), ?_, ?_⟩
    · rw [← store_openSlot e c.key]
      exact hplace key (Ne.symm h)
    · rw [after, htouches.slot key (Ne.symm h)]
      exact slot_openSlot e c.key key

/-! ## Before the reset -/

/-- a session that is not loaded and whose row belongs to another version of its practice -/
structure Stale (e : Executor σ) (p : Compiled) (key : SessionKey) (row : ρ) : Prop where
  practice : e.practice? key.practice = some p
  place : place e.store key = some row
  version : version σ row ≠ p.version
  slot : e.slot key = {}

namespace Stale

variable {e : Executor σ} {p : Compiled} {key : SessionKey} {row : ρ}

theorem openSlot (h : Stale e p key row) (other : SessionKey) : Stale (e.openSlot other) p key row where
  practice := (practice?_congr (practices_openSlot e other) _).trans h.practice
  place := by rw [store_openSlot, h.place]
  version := h.version
  slot := by
    rcases slot_openSlot e other key with hslot | ⟨-, hslot⟩
    · rw [hslot, h.slot]
    · exact hslot

/-- the session is not loaded: its row is read, and nothing of it is kept -/
theorem ensureLoaded (h : Stale e p key row) :
    e.ensureLoaded p key = (.error (.store (.resetRequired key (Placed.version σ row) p.version)), e) := by
  unfold Executor.ensureLoaded
  simp only [h.slot, load_stale h.place h.version, LoadOutcome.snapshot]

theorem onSession (h : Stale e p key row) (call : Executor σ → Compiled → Loaded → Reply σ α) :
    e.onSession key call =
      (e.openSlot key).fail (.store (.resetRequired key (Placed.version σ row) p.version)) := by
  unfold Executor.onSession
  simp only [h.practice, (h.openSlot key).ensureLoaded]

/-- a call other than a reset fails with both versions -/
theorem perform (h : Stale e p key row) {q : Request} (hq : q ≠ .reset) :
    e.perform key q =
      (e.openSlot key).fail (.store (.resetRequired key (Placed.version σ row) p.version)) := by
  cases q with
  | execute text => exact h.onSession _
  | validate => exact h.onSession _
  | state => exact h.onSession _
  | reset => exact absurd rfl hq

theorem after (h : Stale e p key row) {c : Call} (hc : c.key = key → c.request ≠ .reset) :
    Stale (e.after c) p key row := by
  by_cases hkey : c.key = key
  · obtain ⟨_, q⟩ := c
    subst hkey
    rw [Executor.after, h.perform (hc rfl)]
    exact h.openSlot _
  · have hsame := after_untouched e hkey
    refine ⟨(practice?_congr hsame.practices _).trans h.practice, hsame.place.trans h.place, h.version, ?_⟩
    rcases hsame.slot with hslot | ⟨-, hslot⟩
    · exact hslot.trans h.slot
    · exact hslot

/-- the row stays until the session is reset -/
theorem run (h : Stale e p key row) {calls : List Call} (hcalls : ∀ c ∈ calls, c.key = key → c.request ≠ .reset) :
    Stale (e.run calls) p key row := by
  induction calls generalizing e with
  | nil => exact h
  | cons c calls ih =>
    have hnext := h.after (hcalls c List.mem_cons_self)
    exact ih hnext (fun c' hc' => hcalls c' (List.mem_cons_of_mem c hc'))

end Stale

/-! ## After the reset -/

/-- a session of a practice that was never used -/
structure Unused (e : Executor σ) (p : Compiled) (key : SessionKey) : Prop where
  practice : e.practice? key.practice = some p
  place : place e.store key = none
  slot : e.slot key = {}

/-- a session is where calls have led it, whatever the store holds for the others -/
def Serves (e : Executor σ) (p : Compiled) (key : SessionKey) (calls : List Call) : Prop :=
  e.practice? key.practice = some p
    ∧ ∃ rows, KeepsAt key e.store rows ∧ Follows e rows p key (.ofCalls p key calls)

theorem Unused.serves {e : Executor σ} {p : Compiled} {key : SessionKey} (h : Unused e p key) : Serves e p key [] := by
  refine ⟨h.practice, .empty, ⟨h.place, fun s hs => by cases hs⟩, Or.inl ⟨rfl, rfl⟩, ?_, fun l hl => ?_⟩
  · rw [h.slot]
    rfl
  · rw [h.slot] at hl
    cases hl

/-- a reset succeeds whatever the place of the session holds -/
theorem reset_serves {e : Executor σ} {p : Compiled} {key : SessionKey} (hp : e.practice? key.practice = some p) :
    (e.perform key .reset).answer = .ok ⟨key, p.version, p.initial, []⟩
      ∧ place (e.after ⟨key, .reset⟩).store key = some (encode σ (.empty key.practice p.version))
      ∧ Serves (e.after ⟨key, .reset⟩) p key [] := by
  -- `reset_follows` asks for a row that can be kept, but a row that is reset may be a stale or damaged one
  obtain ⟨store', hreset, hplace⟩ := reset_same (e.openSlot key).store key p.version
  have hkept : KeepsAt key store' (Rows.set .empty key ((Progress.start p).snapshot p key)) :=
    .of_set hplace (.empty key p.version) .empty
  let e' := ({ e.openSlot key with store := store' } : Executor σ).setSlot key ⟨some ((Progress.start p).loaded p), none⟩
  have hperform : e.reset key = ⟨.ok ⟨key, p.version, p.initial, []⟩, e', some (.reset p.version p.initial)⟩ := by
    unfold Executor.reset
    simp only [hp, hreset]
    rfl
  have hadvances : Advances (KeepsAt key) (e.openSlot key) .empty p key e' (.start p) :=
    .of_write (.refl key _) hkept rfl rfl
  obtain ⟨rows, hkeeps, -, htouches, hfollows⟩ := hadvances
  have hpractices := htouches.practices.trans (practices_openSlot e key)
  simp only [after, Executor.perform, hperform]
  exact ⟨trivial, hplace, (practice?_congr hpractices _).trans hp, rows, hkeeps, hfollows⟩

namespace Serves

variable {e : Executor σ} {p : Compiled} {key : SessionKey} {calls : List Call}

/-- a call on the session is answered as the session by itself answers it -/
theorem perform (h : Serves e p key calls) (hreach : Reachable p.initial) (q : Request) :
    (e.perform key q).answer = ((Progress.ofCalls p key calls).perform p key q).1
      ∧ Serves (e.after ⟨key, q⟩) p key (calls ++ [⟨key, q⟩]) := by
  obtain ⟨hp, rows, hkeeps, hfollows⟩ := h
  have hnext : Progress.ofCalls p key (calls ++ [⟨key, q⟩]) = ((Progress.ofCalls p key calls).perform p key q).2 := by
    rw [Progress.ofCalls_snoc, Progress.after, if_pos rfl]
  have hstorable := Progress.ofCalls_storable hreach key (calls ++ [⟨key, q⟩])
  rw [hnext] at hstorable
  obtain ⟨hanswer, rows', hkeeps', -, htouches, hfollows'⟩ :=
    perform_follows (keeper_keepsAt key) hkeeps hp hfollows (Progress.ofCalls_sound p key calls) hstorable
  have hpractices := htouches.practices.trans (practices_openSlot e key)
  exact ⟨hanswer, (practice?_congr hpractices _).trans hp, rows', hkeeps', hnext ▸ hfollows'⟩

theorem after (h : Serves e p key calls) (hreach : Reachable p.initial) (c : Call) :
    Serves (e.after c) p key (calls ++ [c]) := by
  by_cases hkey : c.key = key
  · obtain ⟨_, q⟩ := c
    subst hkey
    exact (h.perform hreach q).2
  · obtain ⟨hp, rows, hkeeps, hfollows⟩ := h
    have hsame := after_untouched e hkey
    refine ⟨(practice?_congr hsame.practices _).trans hp, rows, ⟨hsame.place.trans hkeeps.place, hkeeps.storable⟩, ?_⟩
    rw [Progress.ofCalls_snoc, Progress.after, if_neg hkey]
    exact hfollows.of_slot hsame.slot

theorem run (h : Serves e p key []) (hreach : Reachable p.initial) : Serves (e.run calls) p key calls := by
  induction calls using List.reverseRecOn with
  | nil => exact h
  | append_singleton calls c ih =>
    rw [run_snoc]
    exact ih.after hreach c

/-- calls on the session are answered as the session by itself answers them -/
theorem answer (h : Serves e p key []) (hreach : Reachable p.initial) (q : Request) :
    ((e.run calls).perform key q).answer = ((Progress.ofCalls p key calls).perform p key q).1 :=
  ((h.run hreach).perform hreach q).1

end Serves

/-! ## Notices -/

/-- the notice that an answer comes with -/
def Request.notice : (q : Request) → Except SessionError q.Answer → Option EventKind
  | .execute text, .ok ⟨.ok _, r⟩ => some (.executed (Text.trim text) r)
  | .validate, .ok v => some (.validated v.isCorrect v.score)
  | .reset, .ok v => some (.reset v.version v.state)
  | _, _ => none

omit [Placed σ ρ] in
theorem onSession_event (notice : Except SessionError α → Option EventKind) (e : Executor σ) (key : SessionKey)
    {call : Executor σ → Compiled → Loaded → Reply σ α} (hfailed : ∀ cause, notice (.error cause) = none)
    (hcall : ∀ e' p l, (call e' p l).event = notice (call e' p l).answer) :
    (e.onSession key call).event = notice (e.onSession key call).answer := by
  unfold onSession
  split
  · exact (hfailed _).symm
  · split
    · exact (hfailed _).symm
    · exact hcall ..

omit [Placed σ ρ] in
/-- a call is announced by its answer alone -/
theorem perform_event [Placed σ ρ] (e : Executor σ) (key : SessionKey) (q : Request) :
    (e.perform key q).event = q.notice (e.perform key q).answer := by
  cases q with
  | execute text =>
    refine onSession_event (Request.notice (.execute text)) e key (fun cause => rfl) (fun e' p l => ?_)
    dsimp only
    split
    · rfl
    · split
      · rfl
      · rfl
      · split <;> rfl
  | validate => exact onSession_event (Request.notice .validate) e key (fun cause => rfl) (fun e' p l => rfl)
  | state => exact onSession_event (Request.notice .state) e key (fun cause => rfl) (fun e' p l => rfl)
  | reset =>
    show (e.reset key).event = Request.notice .reset (e.reset key).answer
    unfold Executor.reset
    split
    · rfl
    · rename_i p hp
      obtain ⟨store', hreset, -⟩ := reset_same (e.openSlot key).store key p.version
      simp only [hreset]
      rfl

/-! ## Stale rows -/

/-- **Progress of another version is never overwritten.** A session that is not loaded, and whose row belongs to another
version of its practice, keeps that row through any calls on any sessions, as long as it is not reset itself. Meanwhile
every other call on it fails with the version of the row and the version of the practice. A reset succeeds and puts the
empty snapshot of the practice's version in the row's place. From then on the session answers and announces every call as
one does that was never used, in this or any other store with places, and whatever rows these hold for other sessions. -/
theorem stale_row_waits_for_reset {e : Executor σ} {p : Compiled} {key : SessionKey} {row : ρ}
    (hstale : Stale e p key row) (hcompiled : ∃ d : Definition, d.compile = .ok p) {before : List Call}
    (hbefore : ∀ c ∈ before, c.key = key → c.request ≠ .reset) :
    let current := e.run before
    let renewed := current.after ⟨key, .reset⟩
    place current.store key = some row
      ∧ (∀ q : Request, q ≠ .reset →
          (current.perform key q).answer = .error (.store (.resetRequired key (version σ row) p.version))
            ∧ place (current.perform key q).executor.store key = some row)
      ∧ (current.perform key .reset).answer = .ok ⟨key, p.version, p.initial, []⟩
      ∧ place renewed.store key = some (encode σ (.empty key.practice p.version))
      ∧ ∀ {τ υ : Type} [Backend τ] [Placed τ υ] (unused : Executor τ) (after : List Call), Unused unused p key →
          ∀ q : Request,
            ((renewed.run after).perform key q).answer = ((unused.run after).perform key q).answer
              ∧ ((renewed.run after).perform key q).event = ((unused.run after).perform key q).event := by
  intro current renewed
  have hcurrent : Stale current p key row := hstale.run hbefore
  obtain ⟨hreset, hplace, hserves⟩ := reset_serves hcurrent.practice
  refine ⟨hcurrent.place, fun q hq => ?_, hreset, hplace, ?_⟩
  · have hstays : Stale (current.after ⟨key, q⟩) p key row := hcurrent.after (fun _ => hq)
    exact ⟨congrArg Reply.answer (hcurrent.perform hq), hstays.place⟩
  · intro τ υ _ _ unused after hunused q
    obtain ⟨d, hd⟩ := hcompiled
    have hreach := compile_reachable hd
    have hanswer : ((renewed.run after).perform key q).answer = ((unused.run after).perform key q).answer :=
      (hserves.answer hreach q).trans (hunused.serves.answer hreach q).symm
    refine ⟨hanswer, ?_⟩
    rw [perform_event, perform_event, hanswer]

/-- a damaged row of a later version, in a store with room for one session -/
theorem damaged_row_waits_for_reset :
    let ann : SessionKey := ⟨"ann", "playground"⟩
    let bob : SessionKey := ⟨"bob", "playground"⟩
    let damaged : Row := ⟨2, some "no repository", "no history"⟩
    let e := (Executor.new (⟨.insert .empty ann damaged⟩ : Archive) [compiledPlayground]).withCapacity 1
    let before : List Call := [⟨ann, .execute "touch a"⟩, ⟨bob, .execute "touch b"⟩]
    let renewed := (e.run before).after ⟨ann, .reset⟩
    let unused := Executor.new MemoryStore.empty [compiledPlayground]
    Stale e compiledPlayground ann damaged ∧ Unused unused compiledPlayground ann
      ∧ ((e.run before).perform ann .validate).answer = .error (.store (.resetRequired ann 2 1))
      ∧ ((renewed.run [⟨ann, .execute "touch a"⟩]).perform ann .state).answer =
        ((unused.run [⟨ann, .execute "touch a"⟩]).perform ann .state).answer := by
  intro ann bob damaged e before renewed unused
  have hstale : Stale e compiledPlayground ann damaged := ⟨rfl, rfl, by decide, rfl⟩
  have hunused : Unused unused compiledPlayground ann := ⟨rfl, rfl, rfl⟩
  have hbefore : ∀ c ∈ before, c.key = ann → c.request ≠ .reset := by simp [before]
  obtain ⟨-, hfails, -, -, hlater⟩ := stale_row_waits_for_reset hstale ⟨playground, compile_playground⟩ hbefore
  exact ⟨hstale, hunused, (hfails .validate (by simp)).1,
    (hlater unused [⟨ann, .execute "touch a"⟩] hunused .state).1⟩

end RepoTutor.Session
