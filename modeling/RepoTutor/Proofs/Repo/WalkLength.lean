/-
How many turns the walks over the commit graph take. Cut off after so many turns, they have their answer already.

The walk from a commit takes one identifier off its queue in each turn. Every commit that it reaches puts its parents on
the queue once, so there is one turn for the start and one for every link from a commit to a parent (`walkWithin_eq`): on
an accepted repository at most two for each commit (`ancestorsWithin_size`).

The search for cycles begins at every commit, and opens and closes what it meets once; every link is followed once, and
what it leads to need not be a commit. So on any repository there are at most two turns for each commit and each link
(`checkAcyclicWithin_eq`).
-/
import Mathlib.Algebra.BigOperators.Group.Finset.Basic
import Mathlib.Algebra.GroupWithZero.Nat
import Mathlib.Algebra.Order.BigOperators.Group.Finset
import RepoTutor.Proofs.Repo.WellFormed

namespace RepoTutor.Repo

namespace Repository

/-! ## Ancestors -/

/-- how many links to parents some commits have -/
def links (r : Repository) (ids : List CommitId) : Nat := (ids.map (fun id => (r.parentsOf id).length)).sum

/-- the walk cut off after some turns; no answer when it is cut off before it ends -/
def walkWithin (r : Repository) : Nat → List CommitId → List CommitId → Option (List CommitId)
  | _, seen, [] => some seen
  | 0, _, _ :: _ => none
  | n + 1, seen, id :: queue =>
    if seen.contains id then walkWithin r n seen queue
    else walkWithin r n (id :: seen) (queue ++ r.parentsOf id)

/-- the ancestors as far as the walk ends within some turns -/
def ancestorsWithin (r : Repository) (n : Nat) (start : CommitId) : Option (List CommitId) := r.walkWithin n [] [start]

theorem links_cons (r : Repository) (id : CommitId) (ids : List CommitId) :
    r.links (id :: ids) = (r.parentsOf id).length + r.links ids :=
  List.sum_cons

theorem links_walk (r : Repository) (seen queue : List CommitId) : r.links seen ≤ r.links (r.walk seen queue) := by
  fun_induction walk r seen queue with
  | case1 seen => exact Nat.le_refl _
  | case2 seen id queue _ ih => exact ih
  | case3 seen id queue _ ih =>
    rw [links_cons] at ih
    omega

/-- a turn for everything in the queue, and one for every link of what is seen on the way -/
theorem walkWithin_eq (r : Repository) (seen queue : List CommitId) (n : Nat)
    (henough : queue.length + r.links (r.walk seen queue) ≤ n + r.links seen) :
    r.walkWithin n seen queue = some (r.walk seen queue) := by
  fun_induction walk r seen queue generalizing n with
  | case1 seen => simp [walkWithin]
  | case2 seen id queue hseen ih =>
    have hgrown := r.links_walk seen queue
    rw [List.length_cons] at henough
    obtain ⟨m, rfl⟩ : ∃ m, n = m + 1 := Nat.exists_eq_succ_of_ne_zero (by omega)
    rw [walkWithin, if_pos hseen]
    exact ih m (by omega)
  | case3 seen id queue hnew ih =>
    have hgrown := r.links_walk (id :: seen) (queue ++ r.parentsOf id)
    rw [links_cons] at hgrown
    rw [List.length_cons] at henough
    obtain ⟨m, rfl⟩ : ∃ m, n = m + 1 := Nat.exists_eq_succ_of_ne_zero (by omega)
    rw [walkWithin, if_neg hnew]
    refine ih m ?_
    rw [links_cons, List.length_append]
    omega

/-! ## Cycles -/

/-- the search for cycles cut off after some turns: each begins at a commit, or takes one step on the stack -/
def searchCycles (r : Repository) : Nat → Colours → List Visit → List CommitId → Option Check
  | _, _, [], [] => some (.ok ())
  | 0, _, _, _ => none
  | n + 1, m, [], root :: roots =>
    if m.opened.contains root then searchCycles r n m [] roots
    else searchCycles r n { m with opened := root :: m.opened } [(root, r.parentsOf root)] roots
  | n + 1, m, (node, []) :: stack, roots => searchCycles r n { m with closed := node :: m.closed } stack roots
  | n + 1, m, (node, p :: ps) :: stack, roots =>
    if m.closed.contains p then searchCycles r n m ((node, ps) :: stack) roots
    else if m.opened.contains p then some (.error (.cycle p))
    else searchCycles r n { m with opened := p :: m.opened } ((p, r.parentsOf p) :: (node, ps) :: stack) roots

/-- the check for cycles as far as it ends within some turns -/
def checkAcyclicWithin (r : Repository) (n : Nat) : Option Check := r.searchCycles n ⟨[], []⟩ [] r.commits.keys

/-- turns for what is on the stack: one to close each commit and one for each parent that is left -/
def stackTurns (stack : List Visit) : Nat := (stack.map (fun v => v.2.length + 1)).sum

/-- turns for what is not open yet -/
def unopenedTurns (r : Repository) (m : Colours) : Nat :=
  ∑ id ∈ r.mentioned.toFinset with id ∉ m.opened, ((r.parentsOf id).length + 1)

theorem stackTurns_cons (id : CommitId) (ps : List CommitId) (stack : List Visit) :
    stackTurns ((id, ps) :: stack) = ps.length + 1 + stackTurns stack :=
  List.sum_cons

/-- opening a commit puts its turns on the stack -/
theorem unopenedTurns_open {r : Repository} {m : Colours} {id : CommitId} (hmem : id ∈ r.mentioned)
    (hnew : id ∉ m.opened) :
    (r.parentsOf id).length + 1 + r.unopenedTurns { m with opened := id :: m.opened } = r.unopenedTurns m := by
  have hrest : (r.mentioned.toFinset.filter (fun x => x ∉ id :: m.opened))
      = (r.mentioned.toFinset.filter (fun x => x ∉ m.opened)).erase id := by
    ext x
    simp only [Finset.mem_filter, Finset.mem_erase, List.mem_cons, not_or]
    tauto
  rw [unopenedTurns, unopenedTurns, hrest]
  exact Finset.add_sum_erase _ (fun x => (r.parentsOf x).length + 1)
    (Finset.mem_filter.2 ⟨List.mem_toFinset.2 hmem, hnew⟩)

/-- with enough turns for the stack, the search goes on with the roots -/
theorem searchCycles_eq_visit {r : Repository} {m : Colours} {stack : List Visit} {roots : List CommitId}
    (hsearch : r.Search m stack)
    (hroots : ∀ m n, r.Search m [] → roots.length + r.unopenedTurns m ≤ n →
      r.searchCycles n m [] roots = some (r.checkAcyclicFrom m roots))
    (n : Nat) (henough : roots.length + stackTurns stack + r.unopenedTurns m ≤ n) :
    r.searchCycles n m stack roots =
      some (match r.visit m stack with
        | .inl id => .error (.cycle id)
        | .inr m' => r.checkAcyclicFrom m' roots) := by
  fun_induction visit r m stack generalizing n with
  | case1 m => exact hroots m n hsearch henough
  | case2 m node stack ih =>
    rw [stackTurns_cons] at henough
    obtain ⟨k, rfl⟩ : ∃ k, n = k + 1 := Nat.exists_eq_succ_of_ne_zero (by omega)
    rw [searchCycles]
    refine ih hsearch.pop k ?_
    have hsame : r.unopenedTurns { m with closed := node :: m.closed } = r.unopenedTurns m := rfl
    omega
  | case3 m node p ps stack hclosed ih =>
    rw [stackTurns_cons, List.length_cons] at henough
    obtain ⟨k, rfl⟩ : ∃ k, n = k + 1 := Nat.exists_eq_succ_of_ne_zero (by omega)
    rw [searchCycles, if_pos hclosed]
    refine ih (hsearch.skip (by simpa using hclosed)) k ?_
    rw [stackTurns_cons]
    omega
  | case4 m node p ps stack hclosed hopened =>
    rw [stackTurns_cons, List.length_cons] at henough
    obtain ⟨k, rfl⟩ : ∃ k, n = k + 1 := Nat.exists_eq_succ_of_ne_zero (by omega)
    rw [searchCycles, if_neg hclosed, if_pos hopened]
  | case5 m node p ps stack hclosed hopened ih =>
    have hparent : r.IsParent p node := hsearch.tracked.1.1 p List.mem_cons_self
    have hopen := unopenedTurns_open (mem_mentioned_of_parent hparent) (by simpa using hopened)
    rw [stackTurns_cons, List.length_cons] at henough
    obtain ⟨k, rfl⟩ : ∃ k, n = k + 1 := Nat.exists_eq_succ_of_ne_zero (by omega)
    rw [searchCycles, if_neg hclosed, if_neg hopened]
    refine ih hsearch.push k ?_
    rw [stackTurns_cons, stackTurns_cons]
    omega

theorem searchCycles_eq {r : Repository} {roots : List CommitId} (hstored : ∀ id ∈ roots, id ∈ r.mentioned)
    {m : Colours} (hsearch : r.Search m []) (n : Nat) (henough : roots.length + r.unopenedTurns m ≤ n) :
    r.searchCycles n m [] roots = some (r.checkAcyclicFrom m roots) := by
  induction roots generalizing m n with
  | nil => simp [searchCycles, checkAcyclicFrom]
  | cons root roots ih =>
    rw [List.forall_mem_cons] at hstored
    rw [List.length_cons] at henough
    obtain ⟨k, rfl⟩ : ∃ k, n = k + 1 := Nat.exists_eq_succ_of_ne_zero (by omega)
    rw [searchCycles, checkAcyclicFrom]
    split
    · exact ih hstored.2 hsearch k (by omega)
    · rename_i hnew
      have hopen := unopenedTurns_open hstored.1 (by simpa using hnew)
      refine searchCycles_eq_visit (hsearch.start root) (fun m n h => ih hstored.2 h n) k ?_
      have hstack : stackTurns [(root, r.parentsOf root)] = (r.parentsOf root).length + 1 := rfl
      omega

theorem links_keys (r : Repository) : r.links r.commits.keys = (r.commits.values.map (fun c => c.parents.length)).sum := by
  rw [links, Table.keys, Table.values, List.map_map, List.map_map]
  refine congrArg List.sum (List.map_congr_left (fun e he => ?_))
  exact congrArg List.length (parentsOf_of_get? (Table.get?_eq_some_iff.2 he))

theorem length_mentioned (r : Repository) : r.mentioned.length = r.commits.size + r.links r.commits.keys := by
  rw [mentioned, List.length_append, Table.length_keys, List.length_flatMap, links_keys]

/-- only commits have parents -/
theorem sum_parents_mentioned (r : Repository) :
    ∑ id ∈ r.mentioned.toFinset, (r.parentsOf id).length = r.links r.commits.keys := by
  have hsub : r.commits.keys.toFinset ⊆ r.mentioned.toFinset := fun id hid =>
    List.mem_toFinset.2 (List.mem_append_left _ (List.mem_toFinset.1 hid))
  rw [← Finset.sum_subset hsub, List.sum_toFinset _ r.commits.nodup_keys, links]
  intro id _ hid
  by_contra hparents
  obtain ⟨p, hp⟩ := List.exists_mem_of_length_pos (Nat.pos_of_ne_zero hparents)
  obtain ⟨c, hc, -⟩ := isParent_iff.1 hp
  exact hid (List.mem_toFinset.2 (Table.mem_keys.2 ⟨c, hc⟩))

theorem unopenedTurns_start_le (r : Repository) :
    r.unopenedTurns ⟨[], []⟩ ≤ r.commits.size + 2 * r.links r.commits.keys := by
  have hall : r.unopenedTurns ⟨[], []⟩ = r.links r.commits.keys + r.mentioned.toFinset.card := by
    simp [unopenedTurns, Finset.sum_add_distrib, sum_parents_mentioned]
  have hcard := List.toFinset_card_le r.mentioned
  rw [length_mentioned] at hcard
  omega

/-- **The search for cycles ends within two turns for every commit and every link.** -/
theorem checkAcyclicWithin_eq (r : Repository) :
    r.checkAcyclicWithin (2 * (r.commits.size + r.links r.commits.keys)) = some r.checkAcyclic := by
  refine searchCycles_eq (fun id hid => List.mem_append_left _ hid) (.nothing r) _ ?_
  have hturns := r.unopenedTurns_start_le
  rw [Table.length_keys]
  omega

end Repository

namespace WellFormed

variable {r : Repository}

theorem links_le (h : WellFormed r) (ids : List CommitId) : r.links ids ≤ 2 * ids.countP r.commits.contains := by
  induction ids with
  | nil => exact Nat.le_refl _
  | cons id ids ih =>
    rw [Repository.links_cons]
    cases hc : r.commits.get? id with
    | none =>
      have hmissing : r.commits.contains id = false := by simp [Table.contains, hc]
      rw [List.countP_cons_of_neg (by simp [hmissing])]
      simpa [Repository.parentsOf, hc] using ih
    | some c =>
      have harity := (h.commit id c hc).arity
      rw [List.countP_cons_of_pos (Table.contains_of_get? hc), Repository.parentsOf_of_get? hc]
      omega

theorem countP_contains_le {ids : List CommitId} (hnodup : ids.Nodup) :
    ids.countP r.commits.contains ≤ r.commits.size := by
  rw [List.countP_eq_length_filter, ← Table.length_keys]
  refine ((hnodup.filter _).subperm (fun id hid => ?_)).length_le
  exact Table.contains_iff_mem_keys.1 (List.mem_filter.1 hid).2

/-- **The walk ends within two turns for every commit and one for the start.** -/
theorem ancestorsWithin_size (h : WellFormed r) (start : CommitId) :
    r.ancestorsWithin (2 * r.commits.size + 1) start = some (r.ancestors start) := by
  refine r.walkWithin_eq [] [start] _ ?_
  have hlinks := h.links_le (r.ancestors start)
  have hstored := countP_contains_le (r := r) (r.nodup_ancestors start)
  have hnone : r.links [] = 0 := rfl
  rw [List.length_singleton, hnone]
  exact Nat.le_trans (Nat.add_le_add_left hlinks 1) (by omega)

end WellFormed

end RepoTutor.Repo
