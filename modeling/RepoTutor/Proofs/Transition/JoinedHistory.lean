/-
The smallest histories with a merge.

A first commit, one that continues it and one that joins the two (`Joins`) make the smallest history in which a commit has
two parents (`joinedHistory`). It is well-formed whatever the commits tell (`Joins.wellFormed`), all three belong to it
(`Joins.mem_reachable`), and they have no, one and two parents. A branch that lagged behind gets such a history when it is
joined with the branch that is ahead.
-/
import RepoTutor.Proofs.Transition.EmptyCommits

namespace RepoTutor.Transition

open Command Repo

/-- a first commit, one that continues it, and one that joins the two; all of them are without files -/
structure Joins (a b c : Commit) : Prop where
  ids : ∀ d ∈ [a, b, c], d.computedId = d.id
  trees : ∀ d ∈ [a, b, c], d.tree = .empty
  root : a.parents = []
  next : b.parents = [a.id]
  join : c.parents = [a.id, b.id]
  next_ne : b.id ≠ a.id
  join_ne : c.id ≠ b.id ∧ c.id ≠ a.id

/-- commits that are made one after the other join, as long as they get new identifiers -/
theorem joins_of_make {a b c : Commit} {author message author' message' author'' message'' : String}
    {time time' time'' : Nat} (ha : Commit.make [] author time message .empty = a)
    (hb : Commit.make [a.id] author' time' message' .empty = b)
    (hc : Commit.make [a.id, b.id] author'' time'' message'' .empty = c) (hnext : b.id ≠ a.id)
    (hjoin : c.id ≠ b.id ∧ c.id ≠ a.id) : Joins a b c := by
  have hids : a.computedId = a.id ∧ b.computedId = b.id ∧ c.computedId = c.id := by
    rw [← ha, ← hb, ← hc]
    exact ⟨rfl, rfl, rfl⟩
  have htrees : a.tree = .empty ∧ b.tree = .empty ∧ c.tree = .empty := by
    rw [← ha, ← hb, ← hc]
    exact ⟨rfl, rfl, rfl⟩
  exact ⟨by simpa using hids, by simpa using htrees, ha ▸ rfl, hb ▸ rfl, hc ▸ rfl, hnext, hjoin⟩

/-- the main branch at the second commit, and HEAD on a branch that stayed at the first -/
def laggingHistory (a b : Commit) : Repository :=
  { lone a with
    head := .attached "old"
    commits := (lone a).commits.insert b.id b
    branches := ((lone a).branches.insert "old" a.id).insert "main" b.id
    clock := b.timestamp }

/-- the branch that stayed behind after it has been joined with the main branch -/
def joinedHistory (a b c : Commit) : Repository := addCommit (laggingHistory a b) c

variable {a b c : Commit}

theorem get?_joinedHistory (a b c : Commit) (x : CommitId) : (joinedHistory a b c).commits.get? x =
    if c.id = x then some c else if b.id = x then some b else if a.id = x then some a else none := by
  simp [joinedHistory, laggingHistory, addCommit_commits, lone]

theorem contains_joinedHistory {x : CommitId} :
    (joinedHistory a b c).commits.contains x = true ↔ x = a.id ∨ x = b.id ∨ x = c.id := by
  rw [Table.contains, get?_joinedHistory]
  split_ifs <;> simp_all [eq_comm]

theorem get?_joinedHistory_branches (a b c : Commit) (name : BranchName) : (joinedHistory a b c).branches.get? name =
    if "old" = name then some c.id else if "main" = name then some b.id else none := by
  simp only [joinedHistory, laggingHistory, addCommit, Repository.moveHead, lone, Table.get?_insert]
  split_ifs <;> rfl

namespace Joins

theorem wellFormed_lagging (h : Joins a b c) : WellFormed (laggingHistory a b) := by
  have hlone : WellFormed (lone a) := lone_wellFormed (h.ids a (by simp)) h.root (h.trees a (by simp))
  have hstored : (lone a).commits.contains a.id = true := by simp [lone, Table.contains_insert]
  have hsecond := hlone.insertCommit (c := b) (h.ids b (by simp)) (by simp [h.next]) (by simp [h.next, hstored])
    (by simp [h.trees b]) (fun d hd => by simp [lone, Ne.symm h.next_ne] at hd)
  have hbranch := hsecond.insertBranch "old" ((Table.contains_insert _ _ _ _).2 (Or.inr hstored))
  have hmain := (hbranch.insertBranch "main" ((Table.contains_insert _ _ _ _).2 (Or.inl rfl))).attach "old"
  exact hmain.repoint rfl rfl hmain.branch hmain.head hmain.mergeHead

theorem wellFormed (h : Joins a b c) : WellFormed (joinedHistory a b c) := by
  refine h.wellFormed_lagging.addCommit (h.ids c (by simp)) (by simp [h.join]) ?_ (by simp [h.trees c]) (fun d hd => ?_)
  · simp [h.join, laggingHistory, lone, Table.contains_insert]
  · simp [laggingHistory, lone, Ne.symm h.join_ne.1, Ne.symm h.join_ne.2] at hd

theorem parentsOf_root (h : Joins a b c) : (joinedHistory a b c).parentsOf a.id = [] := by
  rw [← h.root]
  exact Repository.parentsOf_of_get? (by simp [get?_joinedHistory, h.join_ne.2, h.next_ne])

theorem parentsOf_next (h : Joins a b c) : (joinedHistory a b c).parentsOf b.id = [a.id] := by
  rw [← h.next]
  exact Repository.parentsOf_of_get? (by simp [get?_joinedHistory, h.join_ne.1])

theorem parentsOf_join (h : Joins a b c) : (joinedHistory a b c).parentsOf c.id = [a.id, b.id] := by
  rw [← h.join]
  exact Repository.parentsOf_of_get? (by simp [get?_joinedHistory])

/-- all three commits belong to the history, and no others -/
theorem mem_reachable (h : Joins a b c) {x : CommitId} :
    x ∈ (joinedHistory a b c).reachable ↔ x = a.id ∨ x = b.id ∨ x = c.id := by
  constructor
  · intro hx
    exact contains_joinedHistory.1 (h.wellFormed.reachable_stored hx)
  · have hroot : c.id ∈ (joinedHistory a b c).reachable := by
      refine Repository.reachable_of_root (Repository.mem_roots.2 (Or.inl ⟨"old", ?_⟩))
      rw [get?_joinedHistory_branches, if_pos rfl]
    rintro (rfl | rfl | rfl)
    · exact Repository.reachable_closed hroot (by simp [h.parentsOf_join])
    · exact Repository.reachable_closed hroot (by simp [h.parentsOf_join])
    · exact hroot

/-- a commit is determined by the number of its parents -/
theorem eq_of_length_parents (h : Joins a b c) {x y : CommitId} (hx : x ∈ (joinedHistory a b c).reachable)
    (hy : y ∈ (joinedHistory a b c).reachable)
    (hlength : ((joinedHistory a b c).parentsOf x).length = ((joinedHistory a b c).parentsOf y).length) : x = y := by
  rcases h.mem_reachable.1 hx with rfl | rfl | rfl <;> rcases h.mem_reachable.1 hy with rfl | rfl | rfl <;>
    simp_all [h.parentsOf_root, h.parentsOf_next, h.parentsOf_join]

end Joins

end RepoTutor.Transition
