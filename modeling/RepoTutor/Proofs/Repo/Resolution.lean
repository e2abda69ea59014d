/-
A revision that resolves names a stored commit.

The base of a revision is HEAD, a branch or a stored commit's abbreviation, and each step leads to the commit itself or
to one of its parents, so in a well-formed repository no step leaves the stored commits. A text without a mark of a step
is all base (`resolve_of_unmarked`).
-/
import Mathlib.Data.List.TakeWhile
import RepoTutor.Proofs.Repo.WellFormed
import RepoTutor.Repo.Revision

namespace RepoTutor.Repo.Repository

/-- without steps, a revision is its base -/
theorem resolve_of_unmarked (r : Repository) {rev : String} (h : ∀ c ∈ rev.toList, isStepMark c = false) :
    r.resolve rev = r.resolveBase rev.toList := by
  have htake : rev.toList.takeWhile (fun c => !isStepMark c) = rev.toList :=
    List.takeWhile_eq_self_iff.2 (fun c hc => by simp [h c hc])
  have hdrop : rev.toList.dropWhile (fun c => !isStepMark c) = [] :=
    List.dropWhile_eq_nil_iff.2 (fun c hc => by simp [h c hc])
  cases hbase : r.resolveBase rev.toList with
  | none => simp [resolve, htake, hbase]
  | some id => simp [resolve, htake, hdrop, hbase, parseSteps?]

end RepoTutor.Repo.Repository

namespace RepoTutor.Repo.WellFormed

variable {r : Repository} (h : WellFormed r)

theorem abbreviated_stored {r : Repository} {base : List Char} {id : CommitId} (hid : r.abbreviated? base = some id) :
    r.commits.contains id = true := by
  unfold Repository.abbreviated? at hid
  split at hid
  · simp at hid
  · split at hid
    · rename_i only honly
      cases hid
      have hmem : id ∈ r.idsWithPrefix (base.map Text.latinLower) := by rw [honly]; exact List.mem_singleton_self _
      exact Table.contains_iff_mem_keys.2 ((List.dropWhile_sublist _).subset ((List.takeWhile_sublist _).subset hmem))
    · simp at hid

include h

theorem resolveBase_stored {base : List Char} {id : CommitId} (hid : r.resolveBase base = some id) :
    r.commits.contains id = true := by
  unfold Repository.resolveBase at hid
  dsimp only at hid
  split at hid
  · exact h.head_stored hid
  · split at hid
    · rename_i id' hbranch
      cases hid
      exact h.branch _ id hbranch
    · exact abbreviated_stored hid

theorem parent_of_commit_stored {id p : CommitId} {c : Commit} (hc : r.commits.get? id = some c) (hp : p ∈ c.parents) :
    r.commits.contains p = true :=
  (h.commit id c hc).parents p hp

omit h in
theorem firstParents_stored {n : Nat} {start id : CommitId} (hid : r.firstParents n start = some id) :
    r.commits.contains id = true := by
  induction n generalizing start with
  | zero =>
    simp only [Repository.firstParents, Option.ite_none_right_eq_some] at hid
    obtain ⟨hstored, heq⟩ := hid
    cases heq
    exact hstored
  | succ n ih =>
    obtain ⟨c, -, hid⟩ := Option.bind_eq_some_iff.1 hid
    obtain ⟨p, -, hid⟩ := Option.bind_eq_some_iff.1 hid
    exact ih hid

theorem follow_stored {start id : CommitId} {step : Repository.Step} (hid : r.follow start step = some id) :
    r.commits.contains id = true := by
  cases step with
  | ancestor n => exact firstParents_stored hid
  | parent n =>
    cases n with
    | zero =>
      simp only [Repository.follow, Option.ite_none_right_eq_some] at hid
      obtain ⟨hstored, heq⟩ := hid
      cases heq
      exact hstored
    | succ n =>
      obtain ⟨c, hc, hid⟩ := Option.bind_eq_some_iff.1 hid
      exact h.parent_of_commit_stored hc (List.mem_of_getElem? hid)

theorem foldlM_follow_stored {steps : List Repository.Step} {start id : CommitId}
    (hstart : r.commits.contains start = true) (hid : steps.foldlM r.follow start = some id) :
    r.commits.contains id = true := by
  induction steps generalizing start with
  | nil =>
    cases hid
    exact hstart
  | cons step steps ih =>
    obtain ⟨next, hnext, hid⟩ := Option.bind_eq_some_iff.1 hid
    exact ih (h.follow_stored hnext) hid

theorem resolve_stored {rev : String} {id : CommitId} (hid : r.resolve rev = some id) :
    r.commits.contains id = true := by
  obtain ⟨start, hstart, hid⟩ := Option.bind_eq_some_iff.1 hid
  obtain ⟨steps, -, hid⟩ := Option.bind_eq_some_iff.1 hid
  exact h.foldlM_follow_stored (h.resolveBase_stored hstart) hid

end RepoTutor.Repo.WellFormed
