/-
The check after an operation never fails on a well-formed repository.

`apply` runs an operation and checks the repository that it leads to. No operation is refused as an internal error by
itself (`step_ordinary`) and each keeps the repository well-formed (`step_wellFormed`), so `apply` is `step`
(`apply_eq_step`). `Reachable` are the repositories that learners get to from an empty one; they are well-formed without
any premise about digests, because whatever would not be is refused (`Reachable.wellFormed`). What is said of a whole
history needs the premise that no commit on the way got the identifier of another one (`CleanRun`), and what is said of
its times that the clock has not run over either (`TimelyRun`).
-/
import RepoTutor.Proofs.Transition.Preservation
import RepoTutor.Proofs.Transition.Refusals

namespace RepoTutor.Transition

open Command Repo

theorem step_ordinary (r : Repository) (op : Operation) : Ordinary (step r op) := by
  cases op with
  | init initialBranch => exact .ok _
  | add pathspecs all => exact ordinary_add r pathspecs all
  | remove paths => exact ordinary_remove r paths
  | restore paths staged => exact ordinary_restore r paths staged
  | commit args => exact ordinary_commit r args
  | branch op => exact ordinary_branch r op
  | checkout target mode => exact ordinary_checkout r target mode
  | merge op =>
    cases op with
    | start source ff commit message => exact ordinary_merge r source ff commit message
    | abort => exact ordinary_abortMerge r
  | reset target mode =>
    show Ordinary (reset r target mode)
    rw [reset_eq]
    cases target with
    | some rev => exact .map (ordinary_resolveRef r rev) _
    | none => exact .ok _
  | log target limit oneline => exact ordinary_log r target limit oneline
  | status => exact .ok _
  | touch paths => exact .ok _
  | writeFile path text append => exact .ok _
  | deleteFile paths => exact ordinary_deleteFiles r paths

/-- what reads only leaves the repository as it is -/
theorem step_readOnly {r : Repository} {op : Operation} {o : Outcome} (hop : op.isReadOnly = true)
    (ho : step r op = .ok o) : o.state = r := by
  cases op with
  | log target limit oneline => exact log_effect ho
  | status =>
    cases ho
    rfl
  | branch op =>
    cases op with
    | list =>
      cases ho
      rfl
    | create name start => simp [Operation.isReadOnly] at hop
    | delete name force => simp [Operation.isReadOnly] at hop
    | rename source target => simp [Operation.isReadOnly] at hop
  | _ => simp [Operation.isReadOnly] at hop

/-- an operation is applied when it succeeds and either only reads or leads to an accepted repository -/
theorem apply_eq_ok {r : Repository} {op : Operation} {o : Outcome} :
    apply r op = .ok o ↔ step r op = .ok o ∧ (op.isReadOnly = true ∨ o.state.check = .ok ()) := by
  unfold apply
  rw [Except.bind_eq_ok]
  constructor
  · rintro ⟨o', hstep, h⟩
    split at h
    · rename_i hread
      cases h
      exact ⟨hstep, Or.inl hread⟩
    · split at h
      · rename_i hcheck
        cases h
        exact ⟨hstep, Or.inr hcheck⟩
      · simp at h
  · rintro ⟨hstep, h⟩
    refine ⟨o, hstep, ?_⟩
    split
    · rfl
    · rename_i hread
      rw [h.resolve_left hread]
      rfl

/-- what is refused, other than as an internal error, is refused by the step -/
theorem apply_eq_error {r : Repository} {op : Operation} {e : TransitionError} (he : e.isFatal = false) :
    apply r op = .error e ↔ step r op = .error e := by
  unfold apply
  rw [Except.bind_eq_error, or_iff_left]
  rintro ⟨o, -, h⟩
  split at h
  · cases h
  · split at h
    · cases h
    · cases h
      cases he

theorem apply_wellFormed {r : Repository} (h : WellFormed r) {op : Operation} {o : Outcome} (ho : apply r op = .ok o) :
    WellFormed o.state := by
  obtain ⟨hstep, hread | hcheck⟩ := apply_eq_ok.1 ho
  · rw [step_readOnly hread hstep]
    exact h
  · exact Repository.check_eq_ok.1 hcheck

theorem apply_of_step {r : Repository} (h : WellFormed r) {op : Operation} {o : Outcome} (ho : step r op = .ok o)
    (hdistinct : DistinctCommitIds r o.state) : apply r op = .ok o :=
  apply_eq_ok.2 ⟨ho, Or.inr (Repository.check_eq_ok.2 (step_wellFormed h ho hdistinct))⟩

theorem apply_of_same {r : Repository} (h : WellFormed r) {op : Operation} {o : Outcome} (ho : step r op = .ok o)
    (hcommits : o.state.commits = r.commits) : apply r op = .ok o :=
  apply_of_step h ho (h.distinct_of_same hcommits)

/-- **On a well-formed repository the check after an operation passes**: applying an operation is just its step. -/
theorem apply_eq_step {r : Repository} (h : WellFormed r) {op : Operation}
    (hdistinct : ∀ o, step r op = .ok o → DistinctCommitIds r o.state) : apply r op = step r op := by
  cases hstep : step r op with
  | error e => rw [apply, hstep]; rfl
  | ok o => exact apply_of_step h hstep (hdistinct o hstep)

/-! ## Runs -/

/-- repositories that operations lead to from an empty one -/
inductive Reachable : Repository → Prop where
  | new (branch : BranchName) : Reachable (.new branch)
  | apply {r : Repository} {op : Operation} {o : Outcome} : Reachable r → apply r op = .ok o → Reachable o.state

theorem Reachable.wellFormed {r : Repository} (h : Reachable r) : WellFormed r := by
  induction h with
  | new branch => exact Repository.new_wellFormed branch
  | apply _ ho ih => exact apply_wellFormed ih ho

theorem Reachable.step {r : Repository} (h : Reachable r) {op : Operation} {o : Outcome} (ho : step r op = .ok o)
    (hdistinct : DistinctCommitIds r o.state) : Reachable o.state :=
  .apply h (apply_of_step h.wellFormed ho hdistinct)

/-- repositories that operations lead to from an empty one, while no new commit gets the identifier of another one -/
inductive CleanRun : Repository → Prop where
  | new (branch : BranchName) : CleanRun (.new branch)
  | apply {r : Repository} {op : Operation} {o : Outcome} :
    CleanRun r → apply r op = .ok o → DistinctCommitIds r o.state → CleanRun o.state

theorem CleanRun.reachable {r : Repository} (h : CleanRun r) : Reachable r := by
  induction h with
  | new branch => exact .new branch
  | apply _ ho _ ih => exact .apply ih ho

theorem CleanRun.step {r : Repository} (h : CleanRun r) {op : Operation} {o : Outcome} (ho : step r op = .ok o)
    (hdistinct : DistinctCommitIds r o.state) : CleanRun o.state :=
  .apply h (apply_of_step h.reachable.wellFormed ho hdistinct) hdistinct

/-- no commit is new -/
theorem CleanRun.step_same {r : Repository} (h : CleanRun r) {op : Operation} {o : Outcome}
    (ho : Transition.step r op = .ok o) (hcommits : o.state.commits = r.commits) : CleanRun o.state :=
  h.step ho (h.reachable.wellFormed.distinct_of_same hcommits)

/-- clean runs on which the clock has not run over, because no operation began at its last time -/
inductive TimelyRun : Repository → Prop where
  | new (branch : BranchName) : TimelyRun (.new branch)
  | apply {r : Repository} {op : Operation} {o : Outcome} :
    TimelyRun r → r.clock + 1 < wordCount 64 → apply r op = .ok o → DistinctCommitIds r o.state → TimelyRun o.state

theorem TimelyRun.cleanRun {r : Repository} (h : TimelyRun r) : CleanRun r := by
  induction h with
  | new branch => exact .new branch
  | apply _ _ ho hdistinct ih => exact .apply ih ho hdistinct

theorem TimelyRun.step {r : Repository} (h : TimelyRun r) (hclock : r.clock + 1 < wordCount 64) {op : Operation}
    {o : Outcome} (ho : step r op = .ok o) (hdistinct : DistinctCommitIds r o.state) : TimelyRun o.state :=
  .apply h hclock (apply_of_step h.cleanRun.reachable.wellFormed ho hdistinct) hdistinct

end RepoTutor.Transition
