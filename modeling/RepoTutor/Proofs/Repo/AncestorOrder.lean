/-
Ancestry as what the walks compute: a partial order on the commits of an accepted repository.

What the walk from a commit lists is the reflexive and transitive closure of parenthood, and what is kept is the union of
the walks from the branches, HEAD and a pending merge. As no commit is its own proper ancestor, the test for an ancestor
orders the commits (`ancestors_are_closure`).
-/
import RepoTutor.Proofs.Repo.WalkLength
import RepoTutor.Proofs.Transition.MergeBases

namespace RepoTutor.Repo

/-- no commit is its own proper ancestor, so ancestry orders the commits -/
theorem WellFormed.isPartialOrder_isAncestor {r : Repository} (h : WellFormed r) :
    IsPartialOrder {id // r.commits.contains id = true} (fun a d => r.isAncestor a d = true) where
  refl a := Repository.isAncestor_iff.2 (.refl r a)
  trans _ _ _ hab hbc :=
    Repository.isAncestor_iff.2 ((Repository.isAncestor_iff.1 hab).trans (Repository.isAncestor_iff.1 hbc))
  antisymm _ _ hab hba :=
    Subtype.ext (h.acyclic.antisymm (Repository.isAncestor_iff.1 hab) (Repository.isAncestor_iff.1 hba))

namespace Repository

open Transition

/-- **The walks compute the closure of parenthood.** On an accepted repository the walk from any start ends within two
turns for every commit and one for the start, and lists, each once, the identifiers from which steps from parents to
children lead to the start, or the start itself; from a commit these are commits. The test for an ancestor decides
membership in this list, what is kept is in ascending order the union of the lists over branches, HEAD and a pending
merge, and the test is a partial order on the commits. -/
theorem ancestors_are_closure {r : Repository} (hcheck : r.check = .ok ()) :
    (∀ c, r.ancestorsWithin (2 * r.commits.size + 1) c = some (r.ancestors c) ∧ (r.ancestors c).Nodup
        ∧ (∀ a, a ∈ r.ancestors c ↔
            Relation.ReflTransGen (fun p id => ∃ child, r.commits.get? id = some child ∧ p ∈ child.parents) a c)
        ∧ (r.commits.contains c = true → ∀ a ∈ r.ancestors c, r.commits.contains a = true))
      ∧ (∀ a d, r.isAncestor a d = true ↔ a ∈ r.ancestors d)
      ∧ r.reachable.Pairwise (· < ·)
      ∧ (∀ x, x ∈ r.reachable ↔
          ∃ root, ((∃ name, r.branches.get? name = some root) ∨ r.headId = some root ∨ r.mergeHead = some root)
            ∧ x ∈ r.ancestors root)
      ∧ IsPartialOrder {id // r.commits.contains id = true} (fun a d => r.isAncestor a d = true) := by
  have hw := check_eq_ok.1 hcheck
  have hparent : r.IsParent = fun p id => ∃ child, r.commits.get? id = some child ∧ p ∈ child.parents :=
    funext fun p => funext fun id => propext isParent_iff
  refine ⟨fun c => ⟨hw.ancestorsWithin_size c, r.nodup_ancestors c, fun a => ?_, fun hc a ha => ?_⟩, fun a d => ?_,
    Table.pairwise_keys _, fun x => ?_, hw.isPartialOrder_isAncestor⟩
  · rw [mem_ancestors, Ancestor, hparent]
  · exact hw.ancestor_stored (mem_ancestors.1 ha) hc
  · rw [isAncestor_iff, mem_ancestors]
  · simp only [mem_reachable, mem_roots, mem_ancestors]

/-- the commits of a history with a merge: the merge commit has all of them among its ancestors, and of its two parents
only one is an ancestor of the other -/
theorem joined_ancestors_are_closure :
    rejoined.check = .ok ()
      ∧ rejoined.ancestorsWithin (2 * rejoined.commits.size + 1) joinedCommit.id
        = some (rejoined.ancestors joinedCommit.id)
      ∧ (∀ x, x ∈ rejoined.ancestors joinedCommit.id ↔ rejoined.commits.contains x = true)
      ∧ rejoined.isAncestor olderCommit.id newerCommit.id = true
      ∧ rejoined.isAncestor newerCommit.id olderCommit.id = false := by
  have hcheck : rejoined.check = .ok () := check_eq_ok.2 rejoined_cleanRun.reachable.wellFormed
  obtain ⟨hwalks, htest, -, -, horder⟩ := ancestors_are_closure hcheck
  obtain ⟨hends, -, hclosure, hstored⟩ := hwalks joinedCommit.id
  have hjoins : ∀ p ∈ rejoined.parentsOf joinedCommit.id, p ∈ rejoined.ancestors joinedCommit.id := fun p hp =>
    (hclosure p).2 (.single (isParent_iff.1 hp))
  rw [rejoined_parents] at hjoins
  have holder : rejoined.isAncestor olderCommit.id newerCommit.id = true :=
    (htest _ _).2 (((hwalks newerCommit.id).2.2.1 _).2 (.single (isParent_iff.1 rejoined_newer)))
  have hcontains : ∀ {x : CommitId}, x = olderCommit.id ∨ x = newerCommit.id → rejoined.commits.contains x = true :=
    fun hx => rejoined_contains.2 (hx.imp_right Or.inl)
  refine ⟨hcheck, hends, fun x => ⟨hstored (rejoined_contains.2 (Or.inr (Or.inr rfl))) x, fun hx => ?_⟩, holder,
    Bool.eq_false_iff.2 (fun hnewer => ?_)⟩
  · rcases rejoined_contains.1 hx with rfl | rfl | rfl
    · exact hjoins _ (by simp)
    · exact hjoins _ (by simp)
    · exact (hclosure _).2 .refl
  · have hsame := horder.antisymm ⟨olderCommit.id, hcontains (Or.inl rfl)⟩ ⟨newerCommit.id, hcontains (Or.inr rfl)⟩
      holder hnewer
    exact olderCommit_ne (congrArg Subtype.val hsame)

end Repository

end RepoTutor.Repo
