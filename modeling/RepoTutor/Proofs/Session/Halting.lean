/-
A command never halts a session.

A session halts when an operation is refused as an internal error, or when what is loaded is broken already. The first
does not happen: on a well-formed repository every operation is refused for a reason of the learner's or leads to a
well-formed repository again (`command_never_halts`).
-/
import RepoTutor.Proofs.Transition.Application
import RepoTutor.Session.Executor

namespace RepoTutor.Session

open Command Repo Transition Practice Store

namespace Executor

variable {σ α : Type}

@[simp] theorem slot_setSlot (e : Executor σ) (key : SessionKey) (s : Slot) : (e.setSlot key s).slot key = s := by
  simp [slot, setSlot]

@[simp] theorem executor_fail (e : Executor σ) (cause : SessionError) : (e.fail cause : Reply σ α).executor = e := rfl

@[simp] theorem slot_withStore (e : Executor σ) (store : σ) (key : SessionKey) :
    ({ e with store := store } : Executor σ).slot key = e.slot key := rfl

variable [Backend σ]

/-- a session that can be loaded has not halted, and stays so -/
theorem ensureLoaded_halted {e e' : Executor σ} {p : Compiled} {key : SessionKey} {l : Loaded}
    (h : e.ensureLoaded p key = (.ok l, e')) : (e'.slot key).halted = none := by
  unfold ensureLoaded at h
  dsimp only at h
  split at h
  · simp at h
  · rename_i hhalted _
    cases h
    exact hhalted
  · rename_i hhalted _
    split at h
    · simp at h
    · simp at h
    · split at h
      · simp at h
      · cases h
        simpa using hhalted

/-- a line halts a loaded session only when its operation is refused as an internal error -/
theorem execute_halted {e e' : Executor σ} {p : Compiled} {key : SessionKey} {text : String} {l : Loaded}
    (hp : e.practice? key.practice = some p) (hload : (e.openSlot key).ensureLoaded p key = (.ok l, e'))
    (hordinary : ∀ op, parse (Text.trim text) = .ok op → Ordinary (apply l.state op)) :
    ((e.execute key text).executor.slot key).halted = none := by
  have hnone := ensureLoaded_halted hload
  unfold execute onSession
  simp only [hp, hload]
  cases hparse : parse (Text.trim text) with
  | error cause => exact hnone
  | ok op =>
    dsimp only
    cases happly : apply l.state op with
    | error cause =>
      have hcause := hordinary op hparse cause happly
      cases cause with
      | invariant v => simp [TransitionError.isFatal] at hcause
      | _ => exact hnone
    | ok o =>
      dsimp only
      split
      · simpa using hnone
      · simpa using hnone

end Executor

/-- **A command never halts a session.** On a repository that the check accepts, every operation is its bare step: it is
refused for an ordinary reason or leads to a repository that the check accepts again. So the check after it never
fails, and no line that asks for the operation halts a session which is at the repository, whatever the store does. -/
theorem command_never_halts {r : Repository} (hcheck : r.check = .ok ()) (op : Operation)
    (hdistinct : ∀ o, step r op = .ok o → DistinctCommitIds r o.state) :
    apply r op = step r op
      ∧ (∀ e, apply r op = .error e → ∀ v, e ≠ .invariant v)
      ∧ (∀ o, apply r op = .ok o → o.state.check = .ok ())
      ∧ ∀ {σ : Type} [Backend σ] (e e' : Executor σ) (p : Compiled) (key : SessionKey) (text : String) (l : Loaded),
          e.practice? key.practice = some p → (e.openSlot key).ensureLoaded p key = (.ok l, e') → l.state = r →
          parse (Text.trim text) = .ok op → ((e.execute key text).executor.slot key).halted = none := by
  have h := Repository.check_eq_ok.1 hcheck
  have happly := apply_eq_step h hdistinct
  have hordinary : Ordinary (apply r op) := happly ▸ step_ordinary r op
  refine ⟨happly, ?_, ?_, ?_⟩
  · rintro e he v rfl
    simpa [TransitionError.isFatal] using hordinary _ he
  · intro o ho
    exact Repository.check_eq_ok.2 (apply_wellFormed h ho)
  · intro σ _ e e' p key text l hp hload hstate hparse
    refine Executor.execute_halted hp hload (fun op' hop' => ?_)
    rw [hparse] at hop'
    cases hop'
    exact hstate ▸ hordinary

/-- the first commit of a repository: its identifier meets no other -/
theorem command_never_halts_at_first_commit :
    let op : Operation := .commit { message := some "first", allowEmpty := true }
    (Repository.new "main").check = .ok () ∧ ∃ o, apply (.new "main") op = .ok o ∧ o.state.check = .ok () := by
  intro op
  have hcheck : (Repository.new "main").check = .ok () := Repository.check_eq_ok.2 (Repository.new_wellFormed "main")
  have hdistinct : ∀ o, step (.new "main") op = .ok o → DistinctCommitIds (.new "main") o.state := by
    intro o ho
    cases ho
    intro c hc d hd _
    rw [List.mem_singleton.1 hc, List.mem_singleton.1 hd]
  obtain ⟨happly, -, hstate, -⟩ := command_never_halts hcheck op hdistinct
  have hok := happly.trans rfl
  exact ⟨hcheck, _, hok, hstate _ hok⟩

end RepoTutor.Session
