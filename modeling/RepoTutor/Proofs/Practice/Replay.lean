/-
Replaying lines, one after another.

A replay is made of its lines (`replay_append`), each of which applies one operation (`replayLine_eq_ok`). So a replay
stays among the repositories that operations lead to (`replay_reachable`). The start of a compiled practice is such a
repository (`compile_reachable`).
-/
import RepoTutor.Practice.Definition
import RepoTutor.Proofs.Transition.History

namespace RepoTutor.Practice

open Command Repo Transition

theorem replayLine_eq_ok {r r' : Repository} {line : String} :
    replayLine r line = .ok r' ↔ ∃ op o, parse line = .ok op ∧ apply r op = .ok o ∧ o.state = r' := by
  unfold replayLine
  cases parse line with
  | error e => simp
  | ok op =>
    cases happly : apply r op with
    | error e => simp [happly]
    | ok o => simp [happly]

theorem replay_append (r : Repository) (before after : List String) :
    replay r (before ++ after) = replay r before >>= fun r' => replay r' after :=
  List.foldlM_append ..

/-- one more line -/
theorem replay_snoc {r r' r'' : Repository} {lines : List String} {line : String} (h : replay r lines = .ok r')
    (hline : replayLine r' line = .ok r'') : replay r (lines ++ [line]) = .ok r'' := by
  rw [replay_append, h]
  show replay r' [line] = .ok r''
  rw [replay, List.foldlM_cons, hline]
  rfl

/-- what lines lead to from a repository that operations lead to -/
theorem replay_reachable {r r' : Repository} (hr : Reachable r) {lines : List String} (h : replay r lines = .ok r') :
    Reachable r' := by
  induction lines generalizing r with
  | nil =>
    cases h
    exact hr
  | cons line lines ih =>
    rw [replay, List.foldlM_cons] at h
    obtain ⟨next, hnext, h⟩ := Except.bind_eq_ok.1 h
    obtain ⟨op, o, -, happly, rfl⟩ := replayLine_eq_ok.1 hnext
    exact ih (.apply hr happly) h

/-- a practice starts where its setup leads to -/
theorem compile_initial {d : Definition} {p : Compiled} (h : d.compile = .ok p) :
    p.definition = d ∧ d.initialState = .ok p.initial := by
  obtain ⟨initial, hinitial, h⟩ := Except.bind_eq_ok.1 h
  cases hgoal : d.goal.state with
  | some goal =>
    rw [hgoal] at h
    cases h
    exact ⟨rfl, hinitial⟩
  | none =>
    rw [hgoal] at h
    obtain ⟨goal, -, h⟩ := Except.bind_eq_ok.1 h
    cases h
    exact ⟨rfl, hinitial⟩

theorem compile_reachable {d : Definition} {p : Compiled} (h : d.compile = .ok p) : Reachable p.initial := by
  obtain ⟨rfl, hinitial⟩ := compile_initial h
  rw [Definition.initialState] at hinitial
  cases hreplay : replay (Repository.new (p.definition.defaultBranch.getD Repo.defaultBranch)) p.definition.setup with
  | error e =>
    rw [hreplay] at hinitial
    cases hinitial
  | ok r =>
    rw [hreplay] at hinitial
    cases hinitial
    exact replay_reachable (.new _) hreplay

/-- a practice without setup, which asks for nothing -/
def playground : Definition :=
  { id := "playground", title := "Playground", description := none, version := 1, defaultBranch := none, setup := []
    goal := {}, expectedCommands := [], ordered := false, rules := [], hints := [] }

def compiledPlayground : Compiled := ⟨playground, .new "main", .new "main", playground.effectiveRules⟩

theorem compile_playground : playground.compile = .ok compiledPlayground := rfl

end RepoTutor.Practice
