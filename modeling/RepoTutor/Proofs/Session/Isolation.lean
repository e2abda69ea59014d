/-
Sessions do not influence each other.

What a call is answered is told by the calls on the same session that may change it. Calls on other sessions, calls that
only read, the room that an executor has and the slots that it gives up do not matter, nor does the kind of its store
(`answer_of_own_writes`).
-/
import RepoTutor.Proofs.Session.Tracking

namespace RepoTutor.Session

open Practice Store

/-- the calls on a session that may change it -/
def ownWrites (key : SessionKey) (calls : List Call) : List Call :=
  calls.filter (fun c => c.key = key ∧ c.request.writes)

/-- **A session is answered as if it were alone.** After any calls on any sessions, an executor over a faithful store
answers a call as another executor does that has seen only the lines and resets of the same session before, whatever
room either has, however often either tries to save, and in whatever faithful store. -/
theorem answer_of_own_writes {σ τ : Type} [Backend σ] [Faithful σ] [Backend τ] [Faithful τ] {practices : List Compiled}
    (hcompiled : ∀ p ∈ practices, ∃ d : Definition, d.compile = .ok p) (calls : List Call)
    (key : SessionKey) (q : Request) (capacity capacity' saveAttempts saveAttempts' : Nat) :
    (((Executor.onEmptyStore σ practices capacity saveAttempts).run calls).perform key q).answer =
      (((Executor.onEmptyStore τ practices capacity' saveAttempts').run (ownWrites key calls)).perform key q).answer := by
  rw [answer_onEmptyStore hcompiled, answer_onEmptyStore hcompiled]
  cases (Table.ofList (practices.map (fun p => (p.id, p)))).get? key.practice with
  | none => rfl
  | some p =>
    show ((Progress.ofCalls p key calls).perform p key q).1 = _
    rw [← Progress.ofCalls_filter]
    rfl

/-- Ann's session after Bob has used the only slot, and as it is without him, in another kind of store -/
theorem answer_without_bob :
    let ann : SessionKey := ⟨"ann", "playground"⟩
    let bob : SessionKey := ⟨"bob", "playground"⟩
    let calls : List Call := [⟨ann, .execute "touch a"⟩, ⟨bob, .execute "touch b"⟩, ⟨ann, .validate⟩]
    (((Executor.onEmptyStore MemoryStore [compiledPlayground] 1 3).run calls).perform ann .state).answer =
      (((Executor.onEmptyStore Archive [compiledPlayground] 9 1).run [⟨ann, .execute "touch a"⟩]).perform ann
        .state).answer := by
  intro ann bob calls
  have hcompiled : ∀ p ∈ [compiledPlayground], ∃ d : Definition, d.compile = .ok p := by
    intro p hp
    rw [List.mem_singleton.1 hp]
    exact ⟨playground, compile_playground⟩
  exact answer_of_own_writes hcompiled calls ann .state 1 9 3 1

end RepoTutor.Session
