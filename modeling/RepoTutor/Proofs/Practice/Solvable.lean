/-
A practice is solved by its own goal.

The goal of a practice is what its lines lead to from the start (`compile_goal`). These lines can all be read
(`replay_parses`), so each of them satisfies itself, and expected commands that are among them in their order pass as
rules. With the standard rules, which the goal passes against itself, that is full marks (`practice_solves_itself`).
-/
import RepoTutor.Proofs.Grading.CommandOrder
import RepoTutor.Proofs.Grading.FullMarks
import RepoTutor.Proofs.Practice.Replay
import RepoTutor.Proofs.Transition.EmptyCommits

namespace RepoTutor.Practice

open Command Repo Grading Transition

/-- a goal of lines is what they lead to from the start -/
theorem compile_goal {d : Definition} {p : Compiled} (h : d.compile = .ok p) (hstate : d.goal.state = none) :
    p.rules = d.effectiveRules ∧ replay p.initial d.goal.commands = .ok p.goal := by
  obtain ⟨initial, -, h⟩ := Except.bind_eq_ok.1 h
  rw [hstate] at h
  obtain ⟨goal, hgoal, h⟩ := Except.bind_eq_ok.1 h
  cases h
  exact ⟨rfl, Except.mapError_eq_ok.1 hgoal⟩

theorem compile_of_replay {d : Definition} {initial goal : Repository} (hinitial : d.initialState = .ok initial)
    (hstate : d.goal.state = none) (hgoal : replay initial d.goal.commands = .ok goal) :
    d.compile = .ok ⟨d, initial, goal, d.effectiveRules⟩ := by
  rw [Definition.compile, hinitial, Except.bind_eq_ok]
  refine ⟨initial, rfl, ?_⟩
  simp only [hstate, hgoal]
  rfl

theorem replay_parses {r r' : Repository} {lines : List String} (h : replay r lines = .ok r') :
    ∀ line ∈ lines, ∃ op, parse line = .ok op := by
  induction lines generalizing r with
  | nil => simp
  | cons line lines ih =>
    rw [replay, List.foldlM_cons] at h
    obtain ⟨next, hnext, h⟩ := Except.bind_eq_ok.1 h
    obtain ⟨op, -, hparse, -, -⟩ := replayLine_eq_ok.1 hnext
    intro l hl
    rcases List.mem_cons.1 hl with rfl | hl
    · exact ⟨op, hparse⟩
    · exact ih h l hl

/-- where the standard rules pass, all do on a history of readable lines with the expected commands in their order -/
theorem effectiveRules_passed {d : Definition} {c : Context} (hrules : d.rules = [])
    (hdefault : ∀ rule ∈ defaultRules, (c.grade rule).passed = true)
    (hreadable : ∀ line ∈ c.history, ∃ op, parse line = .ok op)
    (hexpected : (d.expectedCommands.map (·.command)).Sublist c.history) :
    ∀ rule ∈ d.effectiveRules, (c.grade rule).passed = true := by
  have hself : ∀ line ∈ d.expectedCommands.map (·.command), commandMatches line line = true := by
    intro line hline
    obtain ⟨op, hop⟩ := hreadable line (hexpected.subset hline)
    exact commandMatches_self hop
  intro rule hrule
  simp only [Definition.effectiveRules, hrules, List.isEmpty_nil, if_true, List.mem_append] at hrule
  rcases hrule with (hrule | hrule) | hrule
  · exact hdefault rule hrule
  · obtain ⟨command, hcommand, rfl⟩ := List.mem_map.1 hrule
    have hline : command.command ∈ d.expectedCommands.map (·.command) := List.mem_map_of_mem hcommand
    exact checkCommandIssued_passed.2 ⟨command.command, hexpected.subset hline, hself _ hline⟩
  · split at hrule
    · rw [List.mem_singleton] at hrule
      subst hrule
      exact checkCommandOrder_passed.2 (.of_sublist hself hexpected)
    · cases hrule

/-- **A practice solves itself.** Without rules of its own and with expected commands that are among the lines of its goal
in their order, replaying these lines from the start and grading the result with them passes all rules. -/
theorem practice_solves_itself {d : Definition} {p : Compiled} (hcompile : d.compile = .ok p) (hrules : d.rules = [])
    (hstate : d.goal.state = none) (hexpected : (d.expectedCommands.map (·.command)).Sublist d.goal.commands) :
    ∃ r, replay p.initial d.goal.commands = .ok r ∧ p.rules = d.effectiveRules
      ∧ (p.verdict r d.goal.commands).results.length = d.effectiveRules.length
      ∧ (∀ result ∈ (p.verdict r d.goal.commands).results, result.passed = true)
      ∧ (p.verdict r d.goal.commands).isCorrect = true
      ∧ (p.verdict r d.goal.commands).score = Binary64.ofNat 1 := by
  obtain ⟨hall, hgoal⟩ := compile_goal hcompile hstate
  have hwellFormed : WellFormed p.goal := (replay_reachable (compile_reachable hcompile) hgoal).wellFormed
  have hpassed : ∀ rule ∈ d.effectiveRules,
      ((Context.of p.goal p.goal d.goal.commands).grade rule).passed = true :=
    effectiveRules_passed hrules (defaultRules_passed hwellFormed _) (replay_parses hgoal) hexpected
  refine ⟨p.goal, hgoal, hall, ?_⟩
  rw [Compiled.verdict, hall]
  exact validate_of_passed hpassed

/-- a first commit, and a branch for what comes next -/
def firstBranch : Definition :=
  { playground with
    id := "first-branch"
    goal := { commands := ["git status", "git commit --allow-empty -m first", "git branch side"] }
    expectedCommands := [⟨"git commit --allow-empty -m first", true⟩, ⟨"git branch side", false⟩]
    ordered := true }

theorem firstCommit_replays :
    replayLine (.new "main") "git commit --allow-empty -m first" = .ok (lone olderCommit) := by
  have hparse : parse "git commit --allow-empty -m first"
      = .ok (.commit { message := some "first", allowEmpty := true }) := by decide +kernel
  obtain ⟨o, ho, -, hstate⟩ := apply_firstCommit "main" "first" (c := olderCommit) rfl
  exact replayLine_eq_ok.2 ⟨_, o, hparse, ho, hstate⟩

theorem firstBranch_replays : ∃ r, replay (.new "main") firstBranch.goal.commands = .ok r := by
  have hstatus : parse "git status" = .ok .status := by decide +kernel
  have hcreate : parse "git branch side" = .ok (.branch (.create "side" none)) := by decide +kernel
  have hlone : WellFormed (lone olderCommit) := (lone_reachable "first").wellFormed
  obtain ⟨o, ho, hsame⟩ : ∃ o, step (lone olderCommit) (.branch (.create "side" none)) = .ok o
      ∧ o.state.commits = (lone olderCommit).commits := ⟨_, rfl, rfl⟩
  have happly : apply (lone olderCommit) (.branch (.create "side" none)) = .ok o :=
    apply_of_step hlone ho (hlone.distinct_of_same hsame)
  have hfirst : replay (.new "main") ([] ++ ["git status"]) = .ok (.new "main") :=
    replay_snoc rfl (replayLine_eq_ok.2 ⟨.status, _, hstatus, rfl, rfl⟩)
  have hall := replay_snoc (replay_snoc hfirst firstCommit_replays)
    (replayLine_eq_ok.2 ⟨_, o, hcreate, happly, rfl⟩)
  exact ⟨o.state, hall⟩

theorem firstBranch_solves_itself : ∃ p, firstBranch.compile = .ok p
    ∧ (firstBranch.expectedCommands.map (·.command)).Sublist firstBranch.goal.commands
    ∧ ∃ r, replay p.initial firstBranch.goal.commands = .ok r
      ∧ (p.verdict r firstBranch.goal.commands).results.length = 6
      ∧ (p.verdict r firstBranch.goal.commands).isCorrect = true
      ∧ (p.verdict r firstBranch.goal.commands).score = Binary64.ofNat 1 := by
  obtain ⟨goal, hgoal⟩ := firstBranch_replays
  have hcompile : firstBranch.compile = .ok ⟨firstBranch, .new "main", goal, firstBranch.effectiveRules⟩ :=
    compile_of_replay rfl rfl hgoal
  have hexpected : (firstBranch.expectedCommands.map (·.command)).Sublist firstBranch.goal.commands := by decide
  have hsix : firstBranch.effectiveRules.length = 6 := by decide
  obtain ⟨r, hreplay, -, hlength, -, hcorrect, hscore⟩ := practice_solves_itself hcompile rfl rfl hexpected
  exact ⟨_, hcompile, hexpected, r, hreplay, hlength.trans hsix, hcorrect, hscore⟩

end RepoTutor.Practice
