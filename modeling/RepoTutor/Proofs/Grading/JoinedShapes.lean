/-
Shapes of the smallest histories with a merge.

A first commit, one that continues it and one that joins the two have three shapes, which are the same in every such
history (`Joins.parentShapes_mem`). So any two of these histories are isomorphic, whatever their commits tell
(`Joins.historyIso`).
-/
import RepoTutor.Proofs.Grading.HistoryIso
import RepoTutor.Proofs.Hash.Blocks
import RepoTutor.Proofs.Text.Splitting
import RepoTutor.Proofs.Transition.JoinedHistory

namespace RepoTutor.Grading

open Repo Transition

/-! ## Three shapes -/

theorem shapeId_ofList (parentShapes : List String) :
    shapeId parentShapes =
      digest "gitdojo-shape-v1\n" (String.ofList (",".toList.intercalate (parentShapes.map String.toList))) := by
  rw [shapeId, ← Text.toList_joinWith, String.ofList_toList]

/-- shapes of a first commit, of one that continues it, and of one that joins the two -/
def firstShapes : List String :=
  ["0c5083090134d6aa6491db6ab2a98b03940b201f5494d8f74a17edb9660b7334",
    "fd8b419526b3fe10bcbe9169cd4a0876e79216c532ff0ca1a29eeafd5f349b78",
    "ad6b286240a52517df09ef37e022ac3a8bb404f85f67467b21298f09a75ada7f"]

/-- shapes of the parents of the three -/
def firstParents : List (List String) := [[], firstShapes.take 1, firstShapes.take 2]

theorem map_shapeId_firstParents : firstParents.map shapeId = firstShapes := by
  simp only [firstParents, List.map_cons, List.map_nil, shapeId_ofList, digest_ofList]
  decide +kernel

/-- the digests of the three are different -/
theorem injOn_shapeId_firstParents : Set.InjOn shapeId {shapes | shapes ∈ firstParents} := by
  have hnodup : (firstParents.map shapeId).Nodup := by
    rw [map_shapeId_firstParents]
    decide
  intro ps hps qs hqs h
  exact List.inj_on_of_nodup_map hnodup hps hqs h

end RepoTutor.Grading

namespace RepoTutor.Transition.Joins

open Repo Grading

variable {a b c a' b' c' : Commit}

/-- the parents of each commit have the shapes that they have in every such history -/
theorem parentShapes_mem (h : Joins a b c) {x : CommitId} (hx : x ∈ (joinedHistory a b c).reachable) :
    ((joinedHistory a b c).parentsOf x).map (shape (joinedHistory a b c)) ∈ firstParents := by
  have hw := h.wellFormed
  have hdigests := map_shapeId_firstParents
  simp only [firstParents, firstShapes, List.map_cons, List.map_nil, List.take_succ_cons, List.take_zero,
    List.cons.injEq] at hdigests
  obtain ⟨hroot, hnext, -⟩ := hdigests
  have hfirst : shape (joinedHistory a b c) a.id = firstShapes[0] := by
    rw [shape_eq hw (contains_joinedHistory.2 (by simp)), h.parentsOf_root]
    exact hroot
  have hsecond : shape (joinedHistory a b c) b.id = firstShapes[1] := by
    rw [shape_eq hw (contains_joinedHistory.2 (by simp)), h.parentsOf_next, List.map_singleton, hfirst]
    exact hnext
  rcases h.mem_reachable.1 hx with rfl | rfl | rfl
  · rw [h.parentsOf_root, List.map_nil]
    decide
  · rw [h.parentsOf_next, List.map_singleton, hfirst]
    decide
  · rw [h.parentsOf_join, List.map_cons, List.map_singleton, hfirst, hsecond]
    decide

/-! ## Isomorphic histories -/

/-- the commits of one history at the places of those of another -/
def carry (a b a' b' c' : Commit) (x : CommitId) : CommitId :=
  if x = a.id then a'.id else if x = b.id then b'.id else c'.id

theorem carry_root : carry a b a' b' c' a.id = a'.id := if_pos rfl

theorem carry_next (h : Joins a b c) : carry a b a' b' c' b.id = b'.id := by
  rw [carry, if_neg h.next_ne, if_pos rfl]

theorem carry_join (h : Joins a b c) : carry a b a' b' c' c.id = c'.id := by
  rw [carry, if_neg h.join_ne.2, if_neg h.join_ne.1]

/-- **The smallest histories with a merge are isomorphic.** -/
theorem historyIso (h : Joins a b c) (h' : Joins a' b' c') :
    HistoryIso (carry a b a' b' c') (joinedHistory a b c) (joinedHistory a' b' c') := by
  refine ⟨⟨fun x hx => ?_, fun x hx y hy hxy => ?_, fun y hy => ?_⟩, fun x hx => ?_⟩
  · rcases h.mem_reachable.1 hx with rfl | rfl | rfl
    · exact h'.mem_reachable.2 (Or.inl carry_root)
    · exact h'.mem_reachable.2 (Or.inr (Or.inl h.carry_next))
    · exact h'.mem_reachable.2 (Or.inr (Or.inr h.carry_join))
  · have hnext := h'.next_ne
    obtain ⟨hjoin, hjoin'⟩ := h'.join_ne
    rcases h.mem_reachable.1 hx with rfl | rfl | rfl <;> rcases h.mem_reachable.1 hy with rfl | rfl | rfl <;>
      simp_all [carry_root, h.carry_next, h.carry_join, eq_comm]
  · rcases h'.mem_reachable.1 hy with rfl | rfl | rfl
    · exact ⟨a.id, h.mem_reachable.2 (by simp), carry_root⟩
    · exact ⟨b.id, h.mem_reachable.2 (by simp), h.carry_next⟩
    · exact ⟨c.id, h.mem_reachable.2 (by simp), h.carry_join⟩
  · rcases h.mem_reachable.1 hx with rfl | rfl | rfl
    · rw [carry_root, h.parentsOf_root, h'.parentsOf_root]
      rfl
    · rw [h.carry_next, h.parentsOf_next, h'.parentsOf_next, List.map_singleton, carry_root]
    · rw [h.carry_join, h.parentsOf_join, h'.parentsOf_join, List.map_cons, List.map_singleton, carry_root, h.carry_next]

end RepoTutor.Transition.Joins
