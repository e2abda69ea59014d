/-
The order in which a history is told.

`history` lists what the walk from a commit finds, sorted by time and nothing else. In a repository with one commit for
every tick of the clock, each later than its parents (`Chronological`), that is a topological order: every ancestor of the
commit is listed once, times decrease strictly, and no commit stands behind one of its ancestors
(`Chronological.toldInOrder`).
-/
import Mathlib.Data.List.Nodup
import RepoTutor.Proofs.Repo.WellFormed

namespace RepoTutor.Repo

/-- one commit for every tick of the clock, each later than its parents -/
structure Chronological (r : Repository) : Prop where
  times : (r.commits.values.map Commit.timestamp).Perm (List.range' 1 r.clock)
  parent : ∀ id p c d, r.commits.get? id = some c → r.commits.get? p = some d → p ∈ c.parents → d.timestamp < c.timestamp

/-- the ancestors of a commit in the order of a log -/
structure ToldInOrder (r : Repository) (start : CommitId) (log : List Commit) : Prop where
  stored : ∀ c ∈ log, r.commits.get? c.id = some c
  complete : ∀ id, id ∈ log.map Commit.id ↔ r.Ancestor id start
  once : (log.map Commit.id).Nodup
  decreasing : log.Pairwise (fun a b => b.timestamp < a.timestamp)
  /-- a proper ancestor stands further back -/
  topological : ∀ (i j : Nat) (c d : Commit), log[i]? = some c → log[j]? = some d → r.ProperAncestor d.id c.id → i < j

/-! ## Times -/

namespace Chronological

variable {r : Repository} (h : Chronological r)

include h

theorem timestamp_bounds {id : CommitId} {c : Commit} (hc : r.commits.get? id = some c) :
    1 ≤ c.timestamp ∧ c.timestamp ≤ r.clock := by
  have hmem : c.timestamp ∈ r.commits.values.map Commit.timestamp :=
    List.mem_map_of_mem (Table.mem_values.2 ⟨id, hc⟩)
  have hrange := List.mem_range'_1.1 (h.times.mem_iff.1 hmem)
  omega

/-- a commit is determined by its time -/
theorem eq_of_timestamp {id id' : CommitId} {c d : Commit} (hc : r.commits.get? id = some c)
    (hd : r.commits.get? id' = some d) (heq : c.timestamp = d.timestamp) : c = d := by
  have hnodup : (r.commits.values.map Commit.timestamp).Nodup := h.times.nodup_iff.2 List.nodup_range'
  exact List.inj_on_of_nodup_map hnodup (Table.mem_values.2 ⟨id, hc⟩) (Table.mem_values.2 ⟨id', hd⟩) heq

theorem lt_of_properAncestor (hw : WellFormed r) {a id : CommitId} {c d : Commit} (had : r.ProperAncestor a id)
    (hc : r.commits.get? id = some c) (hd : r.commits.get? a = some d) : d.timestamp < c.timestamp := by
  induction had generalizing c with
  | single hp =>
    obtain ⟨c', hc', hmem⟩ := Repository.isParent_iff.1 hp
    cases hc.symm.trans hc'
    exact h.parent _ _ c d hc hd hmem
  | tail _ hp ih =>
    obtain ⟨c', hc', hmem⟩ := Repository.isParent_iff.1 hp
    cases hc.symm.trans hc'
    obtain ⟨b, hb⟩ := Table.contains_eq_true.1 (hw.parent_stored hp)
    have hbefore : d.timestamp < b.timestamp := ih hb
    have hafter : b.timestamp < c.timestamp := h.parent _ _ c b hc hb hmem
    omega

end Chronological

/-! ## The log -/

namespace Repository

variable {r : Repository} {start : CommitId}

theorem isLaterOrEqual_iff {a b : Commit} :
    isLaterOrEqual a b = true ↔ b.timestamp < a.timestamp ∨ a.timestamp = b.timestamp ∧ a.id ≤ b.id := by
  simp [isLaterOrEqual]

theorem pairwise_history (r : Repository) (start : CommitId) :
    (r.history start).Pairwise (fun a b => isLaterOrEqual a b = true) := by
  refine List.pairwise_mergeSort (fun a b c hab hbc => ?_) (fun a b => ?_) _
  · rw [isLaterOrEqual_iff] at hab hbc ⊢
    rcases hab with hab | ⟨hab, hid⟩ <;> rcases hbc with hbc | ⟨hbc, hid'⟩
    · exact Or.inl (by omega)
    · exact Or.inl (by omega)
    · exact Or.inl (by omega)
    · exact Or.inr ⟨by omega, String.le_trans hid hid'⟩
  · rw [Bool.or_eq_true, isLaterOrEqual_iff, isLaterOrEqual_iff]
    rcases Nat.lt_trichotomy a.timestamp b.timestamp with hlt | heq | hgt
    · exact Or.inr (Or.inl hlt)
    · exact (String.le_total a.id b.id).imp (fun hid => Or.inr ⟨heq, hid⟩) (fun hid => Or.inr ⟨heq.symm, hid⟩)
    · exact Or.inl (Or.inl hgt)

theorem history_perm (r : Repository) (start : CommitId) :
    (r.history start).Perm ((r.ancestors start).filterMap r.commits.get?) :=
  List.mergeSort_perm _ _

/-- every ancestor is stored under its own identifier, so none is left out -/
theorem map_id_filterMap_ancestors (hw : WellFormed r) (hstart : r.commits.contains start = true) :
    ((r.ancestors start).filterMap r.commits.get?).map Commit.id = r.ancestors start := by
  have hsame : ∀ id ∈ r.ancestors start, (r.commits.get? id).map Commit.id = some id := by
    intro id hid
    obtain ⟨c, hc⟩ := Table.contains_eq_true.1 (hw.ancestor_stored (mem_ancestors.1 hid) hstart)
    rw [hc, Option.map_some, (hw.commit id c hc).key]
  rw [List.map_filterMap, List.filterMap_congr hsame, List.filterMap_some]

theorem map_id_history_perm (hw : WellFormed r) (hstart : r.commits.contains start = true) :
    ((r.history start).map Commit.id).Perm (r.ancestors start) := by
  have hperm := (r.history_perm start).map Commit.id
  rwa [map_id_filterMap_ancestors hw hstart] at hperm

theorem stored_of_mem_history (hw : WellFormed r) {c : Commit} (hc : c ∈ r.history start) :
    r.commits.get? c.id = some c := by
  obtain ⟨id, -, hid⟩ := List.mem_filterMap.1 ((r.history_perm start).mem_iff.1 hc)
  rw [(hw.commit id c hid).key]
  exact hid

end Repository

/-- **A log is in topological order**, though it is sorted by time only. -/
theorem Chronological.toldInOrder {r : Repository} (h : Chronological r) (hw : WellFormed r) {start : CommitId}
    (hstart : r.commits.contains start = true) : ToldInOrder r start (r.history start) := by
  have hperm := Repository.map_id_history_perm hw hstart
  have hstored : ∀ c ∈ r.history start, r.commits.get? c.id = some c := fun c hc =>
    Repository.stored_of_mem_history hw hc
  have honce : ((r.history start).map Commit.id).Nodup := hperm.nodup_iff.2 (r.nodup_ancestors start)
  have hdecreasing : (r.history start).Pairwise (fun a b => b.timestamp < a.timestamp) := by
    have hne : (r.history start).Pairwise (fun a b => a ≠ b) := List.Nodup.of_map Commit.id honce
    refine ((r.pairwise_history start).and hne).imp_of_mem (fun {a b} ha hb hab => ?_)
    have hdiffer : a.timestamp ≠ b.timestamp := fun heq =>
      hab.2 (h.eq_of_timestamp (hstored a ha) (hstored b hb) heq)
    rcases Repository.isLaterOrEqual_iff.1 hab.1 with hlt | ⟨heq, -⟩
    · exact hlt
    · exact absurd heq hdiffer
  refine ⟨hstored, fun id => ?_, honce, hdecreasing, fun i j c d hi hj had => ?_⟩
  · rw [hperm.mem_iff]
    exact Repository.mem_ancestors
  · have hc := hstored c (List.mem_of_getElem? hi)
    have hd := hstored d (List.mem_of_getElem? hj)
    have hlt : d.timestamp < c.timestamp := h.lt_of_properAncestor hw had hc hd
    -- further in front stand only later commits
    by_contra hji
    rcases Nat.lt_or_eq_of_le (Nat.le_of_not_lt hji) with hji | rfl
    · obtain ⟨hi', rfl⟩ := List.getElem?_eq_some_iff.1 hi
      obtain ⟨hj', rfl⟩ := List.getElem?_eq_some_iff.1 hj
      have hgt := List.pairwise_iff_getElem.1 hdecreasing j i hj' hi' hji
      omega
    · cases hi.symm.trans hj
      exact Nat.lt_irrefl _ hlt

end RepoTutor.Repo
