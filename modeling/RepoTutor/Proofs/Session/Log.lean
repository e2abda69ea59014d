/-
The accepted lines of a session are its whole truth.

After any calls, a session is where its accepted lines lead to from the start of its practice; this is what it shows,
what its row holds and what it is graded on (`Replays`). For this no session may halt, and no session does as long as no
line makes a commit with the identifier of another one (`CollisionFree`, `ofCalls_halted`). A line that is answered as
refused changes nothing, neither in the store nor in any session (`history_is_replayed`).
-/
import RepoTutor.Proofs.Session.Tracking

namespace RepoTutor.Session

open Command Repo Transition Practice Store Executor

variable {σ : Type} [Backend σ]

/-- along a run, no line makes a commit whose identifier another commit of the session has -/
def CollisionFree (e : Executor σ) (calls : List Call) : Prop :=
  ∀ before after key text, calls = before ++ ⟨key, .execute text⟩ :: after →
    ∀ v op o, ((e.run before).state key).answer = .ok v → parse (Text.trim text) = .ok op → step v.state op = .ok o →
      DistinctCommitIds v.state o.state

theorem CollisionFree.init {e : Executor σ} {calls : List Call} {c : Call} (h : CollisionFree e (calls ++ [c])) :
    CollisionFree e calls := by
  rintro before after key text rfl
  exact h before (after ++ [c]) key text (by simp)

/-- a session shows, stores and grades what its accepted lines lead to -/
structure Replays (e : Executor σ) (key : SessionKey) (p : Compiled) (history : List String) (r : Repository) :
    Prop where
  replayed : replay p.initial history = .ok r
  shown : (e.state key).answer = .ok ⟨key, p.version, r, history⟩
  stored :
    (Backend.load e.store key p.version = .ok (.fresh (.empty key.practice p.version)) ∧ history = [])
      ∨ Backend.load e.store key p.version =
          .ok (.ready ⟨key.practice, if history = [] then none else some r, p.version, history⟩)
  graded : (e.validate key).answer = .ok (p.verdict r history)

/-! ## Running sessions -/

theorem Progress.perform_of_running {g : Progress} (h : g.halted = none) (p : Compiled) (key : SessionKey) :
    (g.perform p key .state).1 = .ok ⟨key, p.version, g.state, g.history⟩
      ∧ (g.perform p key .validate).1 = .ok (p.verdict g.state g.history)
      ∧ ∀ text, g.perform p key (.execute text) = g.execute text := by
  simp only [perform, unlessHalted, h]
  exact ⟨rfl, trivial, fun text => trivial⟩

/-- a line halts a session only when the check after its operation fails -/
theorem Progress.execute_running {g : Progress} (h : g.halted = none) {text : String}
    (hordinary : ∀ op, parse (Text.trim text) = .ok op → Ordinary (apply g.state op)) :
    (g.execute text).2.halted = none := by
  rcases g.execute_cases text with
    ⟨cause, -, hresult⟩ | ⟨op, hparse, ⟨cause, -, -, hresult⟩ | ⟨v, happly, hresult⟩ | ⟨o, -, hresult⟩⟩
  · rw [hresult]
    exact h
  · rw [hresult]
    exact h
  · cases hordinary op hparse _ happly
  · rw [hresult]
    exact h

/-! ## Refused lines -/

/-- a line that is answered as refused has written nothing -/
theorem store_of_refused {e : Executor σ} {key : SessionKey} {text : String} {response : Response}
    (h : (e.execute key text).answer = .ok response) (hrefused : response.isOk = false) :
    (e.execute key text).executor.store = e.store := by
  unfold Executor.execute onSession at h ⊢
  cases hp : e.practice? key.practice with
  | none =>
    rw [hp] at h
    cases h
  | some p =>
    rw [hp] at h
    dsimp only at h ⊢
    have hstore := store_ensureLoaded (e.openSlot key) p key
    rw [store_openSlot] at hstore
    cases hload : (e.openSlot key).ensureLoaded p key with
    | mk loaded e' =>
      rw [hload] at h hstore
      cases loaded with
      | error cause => cases h
      | ok l =>
        dsimp only at h hstore ⊢
        cases hparse : parse (Text.trim text) with
        | error cause => exact hstore
        | ok op =>
          rw [hparse] at h
          dsimp only at h ⊢
          cases happly : apply l.state op with
          | error cause =>
            rw [happly] at h
            cases cause with
            | invariant v => cases h
            | _ => exact hstore
          | ok o =>
            rw [happly] at h
            dsimp only at h
            split at h
            · cases h
            · cases h
              cases hrefused

/-! ## Runs -/

variable [Faithful σ]

theorem ofCalls_halted {e : Executor σ} {calls : List Call} (hstart : Tracks e []) (hstarts : Startable e)
    (hfree : CollisionFree e calls) {key : SessionKey} {p : Compiled} (hp : e.practice? key.practice = some p) :
    (Progress.ofCalls p key calls).halted = none := by
  induction calls using List.reverseRecOn with
  | nil => rfl
  | append_singleton calls c ih =>
    have hrunning := ih hfree.init
    have hsound := Progress.ofCalls_sound p key calls
    obtain ⟨hpractices, htracks⟩ := run_tracks hstart hstarts calls
    have hshown := htracks.answer_of_reads (hstarts.congr hpractices) ((practice?_congr hpractices _).trans hp)
      (q := .state) rfl
    rw [(Progress.perform_of_running hrunning p key).1] at hshown
    rw [Progress.ofCalls_snoc, Progress.after]
    split
    · rename_i hkey
      rcases (Progress.ofCalls p key calls).perform_cases p key c.request with hsame | ⟨text, hline, hstate⟩ | hreset
      · rw [hsame]
        exact hrunning
      · rw [hstate]
        refine Progress.execute_running hrunning (fun op hparse => ?_)
        have hreach := replay_reachable (hstarts _ p hp) hsound
        obtain ⟨ckey, request⟩ := c
        subst hkey
        subst hline
        have hdistinct : ∀ o, step (Progress.ofCalls p ckey calls).state op = .ok o → DistinctCommitIds _ o.state :=
          fun o ho => hfree calls [] ckey text rfl _ op o hshown hparse ho
        rw [apply_eq_step hreach.wellFormed hdistinct]
        exact step_ordinary _ op
      · rw [hreset]
        rfl
    · exact hrunning

namespace Tracks

variable {e : Executor σ} {calls : List Call}

theorem replays (h : Tracks e calls) (hstarts : Startable e) {key : SessionKey} {p : Compiled}
    (hp : e.practice? key.practice = some p) (hrunning : (Progress.ofCalls p key calls).halted = none) :
    Replays e key p (Progress.ofCalls p key calls).history (Progress.ofCalls p key calls).state := by
  obtain ⟨hshown, hgraded, -⟩ := Progress.perform_of_running hrunning p key
  refine ⟨Progress.ofCalls_sound p key calls, ?_, ?_, ?_⟩
  · exact (h.answer_of_reads hstarts hp (q := .state) rfl).trans hshown
  · obtain ⟨rows, hkeeps, hfollows⟩ := h
    rw [Faithful.load hkeeps, Rows.find]
    rcases (hfollows key p hp).row with ⟨hnone, hhistory⟩ | hrow
    · rw [hnone]
      exact Or.inl ⟨rfl, hhistory⟩
    · rw [hrow]
      exact Or.inr (congrArg Except.ok (if_pos rfl))
  · exact (h.answer_of_reads hstarts hp (q := .validate) rfl).trans hgraded

/-- a line that is answered as refused leaves every session as it is -/
theorem state_of_refused (h : Tracks e calls) (hstarts : Startable e) {key : SessionKey} {text : String}
    {response : Response} (hanswer : (e.execute key text).answer = .ok response) (hrefused : response.isOk = false)
    (other : SessionKey) : ((e.execute key text).executor.state other).answer = (e.state other).answer := by
  cases hp : e.practice? key.practice with
  | none =>
    have hunknown : (e.execute key text).answer = _ := (perform_unknown hp (.execute text)).1
    rw [hanswer] at hunknown
    cases hunknown
  | some p =>
    obtain ⟨hperform, hpractices, htracks⟩ := h.answer hstarts hp (.execute text)
    have hline : ((Progress.ofCalls p key calls).perform p key (.execute text)).2 = Progress.ofCalls p key calls := by
      have hanswer := hperform.symm.trans hanswer
      cases hhalted : (Progress.ofCalls p key calls).halted with
      | some reason =>
        simp only [Progress.perform, Progress.unlessHalted, hhalted] at hanswer
        cases hanswer
      | none =>
        rw [(Progress.perform_of_running hhalted p key).2.2] at hanswer ⊢
        exact Progress.execute_refused hanswer hrefused
    have hsame : ∀ p', e.practice? other.practice = some p' →
        Progress.ofCalls p' other (calls ++ [⟨key, .execute text⟩]) = Progress.ofCalls p' other calls := by
      intro p' hp'
      rw [Progress.ofCalls_snoc, Progress.after]
      split
      · rename_i hkey
        obtain rfl : key = other := hkey
        rw [hp] at hp'
        cases hp'
        exact hline
      · rfl
    have hlookup := practice?_congr hpractices other.practice
    show ((e.after ⟨key, .execute text⟩).perform other .state).answer = (e.perform other .state).answer
    cases hp' : e.practice? other.practice with
    | none =>
      rw [(perform_unknown hp' .state).1, (perform_unknown (hlookup.trans hp') .state).1]
    | some p' =>
      rw [h.answer_of_reads hstarts hp' rfl,
        htracks.answer_of_reads (hstarts.congr hpractices) (hlookup.trans hp') rfl, hsame p' hp']

end Tracks

/-- **The accepted lines of a session replay to it.** After any calls on an executor over an empty faithful store, every
session has a history all of whose lines are understood and applied from the start of its practice on, and lead to the
repository that the session shows. Its row, if there is one, is of the practice's version and holds the history and the
repository, or no repository while the history is empty; and grading it is grading that repository and history. A line
that is answered as refused leaves the store and every session as they are. -/
theorem history_is_replayed {practices : List Compiled}
    (hcompiled : ∀ p ∈ practices, ∃ d : Definition, d.compile = .ok p) (calls : List Call)
    (capacity saveAttempts : Nat) (hfree : CollisionFree (onEmptyStore σ practices capacity saveAttempts) calls) :
    let e := (onEmptyStore σ practices capacity saveAttempts).run calls
    (∀ key p, e.practice? key.practice = some p → ∃ history r, Replays e key p history r)
      ∧ ∀ key text response, (e.execute key text).answer = .ok response → response.isOk = false →
          (e.execute key text).executor.store = e.store
            ∧ ∀ other, ((e.execute key text).executor.state other).answer = (e.state other).answer := by
  intro e
  have hstarts := onEmptyStore_startable σ capacity saveAttempts hcompiled
  obtain ⟨hpractices, htracks⟩ := run_tracks onEmptyStore_tracks hstarts calls
  refine ⟨fun key p hp => ?_, fun key text response hanswer hrefused => ?_⟩
  · have hrunning : (Progress.ofCalls p key calls).halted = none :=
      ofCalls_halted onEmptyStore_tracks hstarts hfree ((practice?_congr hpractices key.practice).symm.trans hp)
    exact ⟨_, _, htracks.replays (hstarts.congr hpractices) hp hrunning⟩
  · exact ⟨store_of_refused hanswer hrefused,
      htracks.state_of_refused (hstarts.congr hpractices) hanswer hrefused⟩

/-- a session of one line, kept as texts in a store with room for one session -/
theorem touched_file_is_replayed :
    let ann : SessionKey := ⟨"ann", "playground"⟩
    let start := onEmptyStore Archive [compiledPlayground] 1 1
    CollisionFree start [⟨ann, .execute "touch a"⟩]
      ∧ ∃ r, Replays (start.run [⟨ann, .execute "touch a"⟩]) ann compiledPlayground ["touch a"] r := by
  intro ann start
  have hcompiled : ∀ p ∈ [compiledPlayground], ∃ d : Definition, d.compile = .ok p := by
    intro p hp
    rw [List.mem_singleton.1 hp]
    exact ⟨playground, compile_playground⟩
  have hfree : CollisionFree start [⟨ann, .execute "touch a"⟩] := by
    intro before after key text hcalls v op o hshown hparse ho
    obtain ⟨rfl, hcall⟩ : before = [] ∧ (⟨ann, .execute "touch a"⟩ : Call) = ⟨key, .execute text⟩ := by
      cases before with
      | nil => exact ⟨rfl, (List.cons.inj hcalls).1⟩
      | cons c before => simp at hcalls
    cases hcall
    have hstart : ((start.run []).state ann).answer = .ok ⟨ann, 1, .new "main", []⟩ := rfl
    rw [hstart] at hshown
    cases hshown
    have htouch : parse (Text.trim "touch a") = .ok (.touch ["a"]) := by decide +kernel
    rw [htouch] at hparse
    cases hparse
    cases ho
    exact (Repository.new_wellFormed "main").distinct_of_same (touch_effect _ _).commits
  obtain ⟨hreplays, -⟩ := history_is_replayed (σ := Archive) hcompiled [⟨ann, .execute "touch a"⟩] 1 1 hfree
  have hpractices : (start.run [⟨ann, .execute "touch a"⟩]).practices = start.practices :=
    (run_tracks onEmptyStore_tracks (onEmptyStore_startable Archive 1 1 hcompiled) _).1
  obtain ⟨history, r, hreplayed⟩ := hreplays ann compiledPlayground ((practice?_congr hpractices "playground").trans rfl)
  have haccepted : ((start.run [⟨ann, .execute "touch a"⟩]).state ann).answer.toOption.map View.history =
      some ["touch a"] := by
    decide +kernel
  rw [hreplayed.shown] at haccepted
  cases haccepted
  exact ⟨hfree, r, hreplayed⟩

end RepoTutor.Session
