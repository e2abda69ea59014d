/-
HEAD is born once.

On a repository that operations lead to, an unborn HEAD, no commits, and no branches with HEAD attached are the same
thing (`Reachable.unborn_iff_noCommits`, `Reachable.noCommits_iff_noBranches`). From the first commit on HEAD stands for a
commit: one operation, applied or refused, keeps it so (`tryOperation_born`), and by induction any number of them
(`afterOperations_born`). So no deletion, rename or checkout leaves HEAD on a branch that is not there
(`head_stays_born`).
-/
import RepoTutor.Proofs.Transition.EmptyCommits
import RepoTutor.Proofs.Transition.History

namespace RepoTutor.Transition

open Command Repo

/-! ## Unborn -/

theorem isUnborn_iff {r : Repository} : r.isUnborn = true ↔ r.headId = none := Option.isNone_iff_eq_none

theorem Reachable.unborn_iff_noCommits {r : Repository} (h : Reachable r) :
    r.isUnborn = true ↔ r.commits.isEmpty = true := by
  rw [isUnborn_iff]
  exact ⟨h.noCommits_of_unborn, h.wellFormed.unborn_of_noCommits⟩

theorem Reachable.born_iff {r : Repository} (h : Reachable r) :
    r.headId.isSome = true ↔ r.commits.isEmpty = false := by
  rw [Bool.eq_false_iff, Ne, ← h.unborn_iff_noCommits, isUnborn_iff]
  exact Option.isSome_iff_ne_none

theorem noBranches_of_noCommits {r : Repository} (h : WellFormed r) (hcommits : r.commits.isEmpty = true) :
    r.branches.isEmpty = true := by
  rw [Table.isEmpty_iff]
  intro name
  cases hname : r.branches.get? name with
  | none => rfl
  | some id =>
    obtain ⟨c, hc⟩ := Table.contains_eq_true.1 (h.branch name id hname)
    rw [Table.isEmpty_iff.1 hcommits id] at hc
    cases hc

theorem Reachable.noCommits_iff_noBranches {r : Repository} (h : Reachable r) :
    r.commits.isEmpty = true ↔ r.branches.isEmpty = true ∧ ∃ name, r.head = .attached name := by
  constructor
  · intro hcommits
    obtain ⟨name, hhead, -⟩ := attached_of_unborn (h.wellFormed.unborn_of_noCommits hcommits)
    exact ⟨noBranches_of_noCommits h.wellFormed hcommits, name, hhead⟩
  · rintro ⟨hbranches, name, hhead⟩
    apply h.noCommits_of_unborn
    rw [Repository.headId, hhead]
    exact Table.isEmpty_iff.1 hbranches name

/-! ## Operations -/

/-- the repository after one operation, which changes nothing if it is refused -/
def tryOperation (r : Repository) (op : Operation) : Repository :=
  match apply r op with
  | .ok o => o.state
  | .error _ => r

def afterOperations (r : Repository) (ops : List Operation) : Repository := ops.foldl tryOperation r

theorem tryOperation_of_ok {r : Repository} {op : Operation} {o : Outcome} (h : apply r op = .ok o) :
    tryOperation r op = o.state := by
  rw [tryOperation, h]

theorem Reachable.tryOperation {r : Repository} (h : Reachable r) (op : Operation) : Reachable (tryOperation r op) := by
  unfold Transition.tryOperation
  cases ho : Transition.apply r op with
  | error e => exact h
  | ok o => exact .apply h ho

theorem Reachable.afterOperations {r : Repository} (h : Reachable r) (ops : List Operation) :
    Reachable (afterOperations r ops) := by
  induction ops generalizing r with
  | nil => exact h
  | cons op ops ih => exact ih (h.tryOperation op)

theorem tryOperation_born {r : Repository} (hw : WellFormed r) (hborn : r.headId.isSome = true) (op : Operation) :
    (tryOperation r op).headId.isSome = true := by
  unfold tryOperation
  cases ho : apply r op with
  | error e => exact hborn
  | ok o => exact step_born hw (apply_eq_ok.1 ho).1 hborn

theorem afterOperations_born {r : Repository} (h : Reachable r) (hborn : r.headId.isSome = true)
    (ops : List Operation) : (afterOperations r ops).headId.isSome = true := by
  induction ops generalizing r with
  | nil => exact hborn
  | cons op ops ih => exact ih (h.tryOperation op) (tryOperation_born h.wellFormed hborn op)

/-- **HEAD never becomes unborn again.** It is unborn exactly as long as there are no commits, which is as long as there
are no branches and HEAD is attached. Whatever operations come after the first commit, there are commits and the branch
that HEAD is attached to exists. -/
theorem head_stays_born {r : Repository} (h : Reachable r) :
    (r.isUnborn = true ↔ r.commits.isEmpty = true)
      ∧ (r.commits.isEmpty = true ↔ r.branches.isEmpty = true ∧ ∃ name, r.head = .attached name)
      ∧ (r.commits.isEmpty = false → ∀ ops, (afterOperations r ops).commits.isEmpty = false
          ∧ ∀ name, (afterOperations r ops).head = .attached name →
              (afterOperations r ops).branches.contains name = true) := by
  refine ⟨h.unborn_iff_noCommits, h.noCommits_iff_noBranches, fun hcommits ops => ?_⟩
  have hafter := afterOperations_born h (h.born_iff.2 hcommits) ops
  refine ⟨(h.afterOperations ops).born_iff.1 hafter, fun name hname => ?_⟩
  rw [Repository.headId, hname] at hafter
  exact hafter

/-- HEAD follows its branch to another name -/
theorem renamed_head_stays_born :
    (lone olderCommit).commits.isEmpty = false
      ∧ (afterOperations (lone olderCommit) [.branch (.rename none "trunk")]).head = .attached "trunk"
      ∧ (afterOperations (lone olderCommit) [.branch (.rename none "trunk")]).branches.contains "trunk" = true := by
  have hcommits : (lone olderCommit).commits.isEmpty = false := rfl
  have hreachable : Reachable (lone olderCommit) := lone_reachable "first"
  obtain ⟨o, ho, hsame, hhead⟩ : ∃ o, step (lone olderCommit) (.branch (.rename none "trunk")) = .ok o
      ∧ o.state.commits = (lone olderCommit).commits ∧ o.state.head = .attached "trunk" := ⟨_, rfl, rfl, rfl⟩
  have happly := apply_of_step hreachable.wellFormed ho (hreachable.wellFormed.distinct_of_same hsame)
  have hrenamed : (afterOperations (lone olderCommit) [.branch (.rename none "trunk")]).head = .attached "trunk" := by
    rw [afterOperations, List.foldl_cons, List.foldl_nil, tryOperation_of_ok happly]
    exact hhead
  exact ⟨hcommits, hrenamed, ((head_stays_born hreachable).2.2 hcommits _).2 "trunk" hrenamed⟩

end RepoTutor.Transition
