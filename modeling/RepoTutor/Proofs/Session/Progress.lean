/-
One session by itself.

What a learner gets from a session is told here without any executor: `Progress` is where the session is, the lines that
it has accepted and whether it has halted, and `Progress.perform` answers a request. There is no store, no slot and no
other session, so it is the specification that executors are compared with.

The accepted lines always lead from the practice's start to where the session is (`Progress.Sound`). A request that only
reads leaves the session as it is (`perform_of_reads`), and so does a line that is answered as refused
(`execute_refused`).
-/
import Mathlib.Data.List.Induction
import RepoTutor.Proofs.Practice.Replay
import RepoTutor.Proofs.Transition.Application
import RepoTutor.Session.Executor

namespace RepoTutor.Session

open Command Repo Transition Practice Store

/-! ## Requests -/

/-- what a session is asked for -/
inductive Request where
  | execute (text : String)
  | validate
  | state
  | reset

namespace Request

abbrev Answer : Request → Type
  | execute _ => Response
  | validate => Grading.Verdict
  | state => View
  | reset => View

/-- requests that may change a session -/
def writes : Request → Bool
  | execute _ => true
  | validate => false
  | state => false
  | reset => true

end Request

/-- a request to the session of a key -/
structure Call where
  key : SessionKey
  request : Request

namespace Executor

variable {σ : Type} [Backend σ]

def perform (e : Executor σ) (key : SessionKey) : (q : Request) → Reply σ q.Answer
  | .execute text => e.execute key text
  | .validate => e.validate key
  | .state => e.state key
  | .reset => e.reset key

/-- the executor after one call -/
def after (e : Executor σ) (c : Call) : Executor σ := (e.perform c.key c.request).executor

/-- the executor after some calls -/
def run (e : Executor σ) (calls : List Call) : Executor σ := calls.foldl after e

theorem run_snoc (e : Executor σ) (calls : List Call) (c : Call) : e.run (calls ++ [c]) = (e.run calls).after c :=
  List.foldl_concat ..

end Executor

/-! ## Progress -/

/-- where a session is, the lines it has accepted and why it halted, if it did -/
structure Progress where
  state : Repository
  history : List String
  halted : Option String

namespace Progress

/-- a session that has not begun -/
def start (p : Compiled) : Progress := ⟨p.initial, [], none⟩

def loaded (g : Progress) (p : Compiled) : Loaded := ⟨g.state, g.history, p.version⟩

/-- what is stored of a session -/
def snapshot (g : Progress) (p : Compiled) (key : SessionKey) : Snapshot :=
  ⟨key.practice, if g.history = [] then none else some g.state, p.version, g.history⟩

/-- an answer together with the session after it -/
abbrev Result (α : Type) := Except SessionError α × Progress

/-- one line -/
def execute (g : Progress) (text : String) : Result Response :=
  let line := Text.trim text
  match parse line with
  | .error cause => (.ok ⟨.error (.parse cause), g.state⟩, g)
  | .ok op =>
    match apply g.state op with
    | .error (.invariant v) => (.error (.invariant v), { g with halted := some v.message })
    | .error cause => (.ok ⟨.error (.transition cause), g.state⟩, g)
    | .ok o => (.ok ⟨.ok o.output, o.state⟩, { g with state := o.state, history := g.history ++ [line] })

/-- a halted session answers nothing but that it has halted -/
def unlessHalted {α : Type} (g : Progress) (key : SessionKey) (result : Result α) : Result α :=
  match g.halted with
  | some reason => (.error (.halted key reason), g)
  | none => result

def perform (g : Progress) (p : Compiled) (key : SessionKey) : (q : Request) → Result q.Answer
  | .execute text => g.unlessHalted key (g.execute text)
  | .validate => g.unlessHalted key (.ok (p.verdict g.state g.history), g)
  | .state => g.unlessHalted key (.ok (Executor.viewOf key (g.loaded p)), g)
  | .reset => (.ok (Executor.viewOf key ((start p).loaded p)), start p)

/-- the session of a key after a call, which may be one on another session -/
def after (p : Compiled) (key : SessionKey) (g : Progress) (c : Call) : Progress :=
  if c.key = key then (g.perform p key c.request).2 else g

/-- the session of a key after some calls -/
def ofCalls (p : Compiled) (key : SessionKey) (calls : List Call) : Progress := calls.foldl (after p key) (start p)

theorem ofCalls_snoc (p : Compiled) (key : SessionKey) (calls : List Call) (c : Call) :
    ofCalls p key (calls ++ [c]) = (ofCalls p key calls).after p key c :=
  List.foldl_concat ..

/-! ## What requests leave alone -/

theorem unlessHalted_of_reads {α : Type} (g : Progress) (key : SessionKey) (answer : Except SessionError α) :
    (g.unlessHalted key (answer, g)).2 = g := by
  unfold unlessHalted
  split <;> rfl

theorem perform_of_reads (g : Progress) (p : Compiled) (key : SessionKey) {q : Request} (hq : q.writes = false) :
    (g.perform p key q).2 = g := by
  cases q with
  | validate => exact unlessHalted_of_reads g key _
  | state => exact unlessHalted_of_reads g key _
  | execute text => cases hq
  | reset => cases hq

/-- calls on other sessions and calls that only read do not matter -/
theorem ofCalls_filter (p : Compiled) (key : SessionKey) (calls : List Call) :
    ofCalls p key (calls.filter (fun c => c.key = key ∧ c.request.writes)) = ofCalls p key calls := by
  unfold ofCalls
  generalize start p = g
  induction calls generalizing g with
  | nil => rfl
  | cons c calls ih =>
    by_cases hkey : c.key = key
    · cases hwrites : c.request.writes with
      | true =>
        rw [List.filter_cons_of_pos (by simp [hkey, hwrites])]
        exact ih _
      | false =>
        have hsame : g.after p key c = g := by rw [after, if_pos hkey, perform_of_reads g p key hwrites]
        rw [List.filter_cons_of_neg (by simp [hwrites]), List.foldl_cons, hsame]
        exact ih g
    · have hsame : g.after p key c = g := if_neg hkey
      rw [List.filter_cons_of_neg (by simp [hkey]), List.foldl_cons, hsame]
      exact ih g

/-! ## Lines -/

/-- a line is not understood, is refused, halts the session, or is accepted -/
theorem execute_cases (g : Progress) (text : String) :
    (∃ cause, parse (Text.trim text) = .error cause ∧ g.execute text = (.ok ⟨.error (.parse cause), g.state⟩, g))
      ∨ ∃ op, parse (Text.trim text) = .ok op ∧
        ((∃ cause, apply g.state op = .error cause ∧ cause.isFatal = false
            ∧ g.execute text = (.ok ⟨.error (.transition cause), g.state⟩, g))
          ∨ (∃ v, apply g.state op = .error (.invariant v)
            ∧ g.execute text = (.error (.invariant v), { g with halted := some v.message }))
          ∨ ∃ o, apply g.state op = .ok o ∧ g.execute text =
              (.ok ⟨.ok o.output, o.state⟩, { g with state := o.state, history := g.history ++ [Text.trim text] })) := by
  cases hparse : parse (Text.trim text) with
  | error cause => exact Or.inl ⟨cause, rfl, by simp only [execute, hparse]⟩
  | ok op =>
    refine Or.inr ⟨op, rfl, ?_⟩
    cases happly : apply g.state op with
    | error cause =>
      cases cause with
      | invariant v => exact Or.inr (Or.inl ⟨v, rfl, by simp only [execute, hparse, happly]⟩)
      | _ => exact Or.inl ⟨_, rfl, rfl, by simp only [execute, hparse, happly]⟩
    | ok o => exact Or.inr (Or.inr ⟨o, rfl, by simp only [execute, hparse, happly]⟩)

theorem execute_refused {g : Progress} {text : String} {response : Response}
    (h : (g.execute text).1 = .ok response) (hrefused : response.isOk = false) : (g.execute text).2 = g := by
  rcases g.execute_cases text with
    ⟨cause, -, hresult⟩ | ⟨op, -, ⟨cause, -, -, hresult⟩ | ⟨v, -, hresult⟩ | ⟨o, -, hresult⟩⟩
  · rw [hresult]
  · rw [hresult]
  · rw [hresult] at h
    cases h
  · rw [hresult] at h
    cases h
    cases hrefused

/-- a request leaves the session as it is, runs a line or starts over -/
theorem perform_cases (g : Progress) (p : Compiled) (key : SessionKey) (q : Request) :
    (g.perform p key q).2 = g ∨ (∃ text, q = .execute text ∧ (g.perform p key q).2 = (g.execute text).2)
      ∨ (g.perform p key q).2 = start p := by
  cases q with
  | execute text =>
    simp only [perform, unlessHalted]
    split
    · exact Or.inl rfl
    · exact Or.inr (Or.inl ⟨text, rfl, rfl⟩)
  | validate => exact Or.inl (perform_of_reads g p key rfl)
  | state => exact Or.inl (perform_of_reads g p key rfl)
  | reset => exact Or.inr (Or.inr rfl)

/-! ## Replay -/

/-- the accepted lines lead from the practice's start to where the session is -/
def Sound (p : Compiled) (g : Progress) : Prop := replay p.initial g.history = .ok g.state

theorem start_sound (p : Compiled) : Sound p (start p) := rfl

/-- without accepted lines a session is where it begins -/
theorem Sound.state_eq {p : Compiled} {g : Progress} (h : Sound p g) (hhistory : g.history = []) :
    g.state = p.initial := by
  rw [Sound, hhistory] at h
  exact (Except.ok.inj h).symm

theorem Sound.execute {p : Compiled} {g : Progress} (h : Sound p g) (text : String) : Sound p (g.execute text).2 := by
  rcases g.execute_cases text with
    ⟨cause, -, hresult⟩ | ⟨op, hparse, ⟨cause, -, -, hresult⟩ | ⟨v, -, hresult⟩ | ⟨o, happly, hresult⟩⟩
  · rw [hresult]
    exact h
  · rw [hresult]
    exact h
  · rw [hresult]
    exact h
  · rw [hresult]
    exact replay_snoc h (replayLine_eq_ok.2 ⟨op, o, hparse, happly, rfl⟩)

theorem Sound.perform {p : Compiled} {g : Progress} (h : Sound p g) (key : SessionKey) (q : Request) :
    Sound p (g.perform p key q).2 := by
  rcases g.perform_cases p key q with hsame | ⟨text, -, hline⟩ | hstart
  · rw [hsame]
    exact h
  · rw [hline]
    exact h.execute text
  · rw [hstart]
    exact start_sound p

theorem ofCalls_sound (p : Compiled) (key : SessionKey) (calls : List Call) : Sound p (ofCalls p key calls) := by
  induction calls using List.reverseRecOn with
  | nil => exact start_sound p
  | append_singleton calls c ih =>
    rw [ofCalls_snoc, after]
    split
    · exact ih.perform key c.request
    · exact ih

end Progress

end RepoTutor.Session
