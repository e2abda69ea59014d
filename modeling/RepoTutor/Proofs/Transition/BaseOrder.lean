/-
Merge bases of two commits in either order.

Whether there is a base does not depend on the order, nor does the round in which the search ends. Which of the commits
that are met in this round is the base does depend on it (`base_in_either_order`): the side that begins takes what it
looks at first, and only what the other side had reached by then. One commit met in the round, or histories without merges,
leave no choice; a merge commit that could have been a fast-forward is enough to make a difference
(`base_of_joined_in_either_order`).
-/
import RepoTutor.Proofs.Repo.SearchOrder
import RepoTutor.Proofs.Transition.MergeBases

namespace RepoTutor.Transition

open Repo

/-- **The order of two commits decides only between commits met in one round.** There is a base in both orders or in none.
Both bases are met in the first round in which anything is met, each as `taken` says, and they are equal if only one commit
is met then. They are different if in this round each side reaches what the other had reached before, and equal if there
are no merges in the two histories. -/
theorem base_in_either_order {r : Repository} (hr : Reachable r) (a b : CommitId) :
    (r.mergeBase a b = none ↔ r.mergeBase b a = none)
      ∧ (∀ c d, r.mergeBase a b = some c → r.mergeBase b a = some d →
          ∃ n, (∀ m < n, ∀ x, ¬r.MetWithin a b m x) ∧ r.MetWithin a b n c ∧ r.MetWithin a b n d
            ∧ ((∃! x, r.MetWithin a b n x) → c = d))
      ∧ (∀ n, (∀ x, ¬r.MetWithin a b n x) → (∃ x, r.MetWithin a b (n + 1) x) →
          r.mergeBase a b = r.taken a b n ∧ r.mergeBase b a = r.taken b a n
            ∧ ((∃ x, r.Within a (n + 1) x ∧ r.Within b n x) → (∃ y, r.Within b (n + 1) y ∧ r.Within a n y) →
                r.mergeBase a b ≠ r.mergeBase b a))
      ∧ ((∀ x, r.Ancestor x a ∨ r.Ancestor x b → (r.parentsOf x).length ≤ 1) → r.mergeBase a b = r.mergeBase b a) := by
  refine ⟨?_, fun c d hc hd => ?_, fun n hnone hmet => ?_, Repository.mergeBase_comm_of_linear hr.wellFormed.acyclic⟩
  · simp only [mergeBase_eq_none_iff, Repository.CommonAncestor, and_comm]
  · obtain ⟨n, ⟨x, hx⟩, hbefore⟩ := Repository.exists_first_round hc
    have hmetc := Repository.base_metWithin hc hx hbefore
    have hmetd := (Repository.base_metWithin hd hx.swap (fun m hm y hy => hbefore m hm y hy.swap)).swap
    exact ⟨n, hbefore, hmetc, hmetd, fun honly => honly.unique hmetc hmetd⟩
  · have hab := Repository.mergeBase_eq_taken hnone hmet
    have hba := Repository.mergeBase_eq_taken (fun x hx => hnone x hx.swap) (hmet.imp (fun _ hx => hx.swap))
    refine ⟨hab, hba, ?_⟩
    rintro ⟨x, hx, hx'⟩ ⟨y, hy, hy'⟩ heq
    obtain ⟨z, hz⟩ := hmet
    obtain ⟨c, hc⟩ := Repository.taken_of_met hnone hz
    have hd : r.taken b a n = some c := by rw [← hba, ← heq, hab, hc]
    exact Repository.taken_ne_of_crossed hnone hx hx' hy hy' hc hd rfl

/-- the merge commit has its second parent for a base only if the search begins at the merge commit -/
theorem base_of_joined_in_either_order :
    Reachable rejoined ∧ (∀ x, ¬rejoined.MetWithin newerCommit.id joinedCommit.id 0 x)
      ∧ rejoined.MetWithin newerCommit.id joinedCommit.id 1 olderCommit.id
      ∧ rejoined.mergeBase newerCommit.id joinedCommit.id = some olderCommit.id
      ∧ rejoined.mergeBase joinedCommit.id newerCommit.id = some newerCommit.id := by
  have hreachable := rejoined_cleanRun.reachable
  have hnone : ∀ x, ¬rejoined.MetWithin newerCommit.id joinedCommit.id 0 x :=
    fun x hx => joinedCommit_ne_newer (hx.2.symm.trans hx.1)
  have hmet : rejoined.MetWithin newerCommit.id joinedCommit.id 1 olderCommit.id := by
    refine ⟨Or.inr ⟨_, rfl, rejoined_newer⟩, Or.inr ⟨_, rfl, ?_⟩⟩
    rw [Repository.IsParent, rejoined_parents]
    exact List.mem_cons_self
  obtain ⟨-, -, htaken, -⟩ := base_in_either_order hreachable newerCommit.id joinedCommit.id
  obtain ⟨hfirst, hsecond, -⟩ := htaken 0 hnone ⟨_, hmet⟩
  refine ⟨hreachable, hnone, hmet, hfirst.trans ?_, hsecond.trans ?_⟩
  · simp [Repository.taken, Repository.looked, Repository.sideAfter, Repository.collect, rejoined_parents_newer,
      rejoined_parents, Ne.symm joinedCommit_ne_older, olderCommit_ne]
  · simp [Repository.taken, Repository.looked, Repository.sideAfter, rejoined_parents, olderCommit_ne]

end RepoTutor.Transition
