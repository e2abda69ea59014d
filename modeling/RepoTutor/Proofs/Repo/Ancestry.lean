/-
Ancestry in the commit graph, as a relation, and the walks that compute it.

`IsParent p c` reads the graph one edge at a time; `Ancestor` is its reflexive and transitive closure, so a commit is its
own ancestor, and `ProperAncestor` leaves that out. A repository is `Acyclic` when following parents always ends.

Results, all for repositories in any state, well-formed or not:
- `mem_ancestors`: the walk from a commit lists exactly its ancestors;
- `isAncestor_iff`: the test that merges and branch deletion use decides ancestry;
- `mem_reachable`: what is kept is exactly what a branch, HEAD or a pending merge has among its ancestors, and
  `reachable_closed` says that parents are kept with their children.
-/
import Mathlib.Order.RelClasses
import RepoTutor.Proofs.Data.Membership
import RepoTutor.Repo.Graph

namespace RepoTutor.Repo.Repository

open Relation (ReflTransGen TransGen)

/-! ## The relation -/

/-- `p` is a parent of `c` -/
def IsParent (r : Repository) (p c : CommitId) : Prop := p ∈ r.parentsOf c

/-- `a` is `d` or one of its ancestors -/
def Ancestor (r : Repository) (a d : CommitId) : Prop := ReflTransGen r.IsParent a d

/-- `a` is an ancestor of `d` over at least one generation -/
def ProperAncestor (r : Repository) (a d : CommitId) : Prop := TransGen r.IsParent a d

/-- following parents ends from every commit -/
def Acyclic (r : Repository) : Prop := WellFounded r.IsParent

theorem parentsOf_of_get? {r : Repository} {id : CommitId} {c : Commit} (h : r.commits.get? id = some c) :
    r.parentsOf id = c.parents := by
  simp only [parentsOf, h]

theorem isParent_iff {r : Repository} {p id : CommitId} :
    r.IsParent p id ↔ ∃ c, r.commits.get? id = some c ∧ p ∈ c.parents := by
  unfold IsParent parentsOf
  cases r.commits.get? id <;> simp

theorem Ancestor.refl (r : Repository) (a : CommitId) : r.Ancestor a a := ReflTransGen.refl

theorem Ancestor.trans {r : Repository} {a b c : CommitId} (h : r.Ancestor a b) (h' : r.Ancestor b c) :
    r.Ancestor a c :=
  ReflTransGen.trans h h'

theorem Ancestor.of_parent {r : Repository} {p a d : CommitId} (hp : r.IsParent p a) (h : r.Ancestor a d) :
    r.Ancestor p d :=
  ReflTransGen.head hp h

theorem ProperAncestor.ancestor {r : Repository} {a d : CommitId} (h : r.ProperAncestor a d) : r.Ancestor a d :=
  TransGen.to_reflTransGen h

theorem Ancestor.eq_or_proper {r : Repository} {a d : CommitId} (h : r.Ancestor a d) :
    a = d ∨ r.ProperAncestor a d := by
  rcases Relation.reflTransGen_iff_eq_or_transGen.1 h with h | h
  · exact Or.inl h.symm
  · exact Or.inr h

theorem Acyclic.irrefl {r : Repository} (h : r.Acyclic) (a : CommitId) : ¬ r.ProperAncestor a a :=
  fun ha => (WellFounded.transGen h).asymmetric a a ha ha

theorem Acyclic.antisymm {r : Repository} (h : r.Acyclic) {a d : CommitId} (had : r.Ancestor a d)
    (hda : r.Ancestor d a) : a = d := by
  rcases had.eq_or_proper with heq | hproper
  · exact heq
  · exact absurd (TransGen.trans_left hproper hda) (h.irrefl a)

/-- a set that holds a commit and the parents of all its members holds the commit's ancestors -/
theorem Ancestor.mem_of_closed {r : Repository} {a d : CommitId} (h : r.Ancestor a d) {P : CommitId → Prop}
    (hd : P d) (hclosed : ∀ x, P x → ∀ p, r.IsParent p x → P p) : P a := by
  induction h using ReflTransGen.head_induction_on with
  | refl => exact hd
  | head hab _ ih => exact hclosed _ ih _ hab

/-- where commits are only added, ancestry stays -/
theorem Ancestor.mono {r r' : Repository} (hcommits : Table.Extends r.commits r'.commits) {a d : CommitId}
    (h : r.Ancestor a d) : r'.Ancestor a d := by
  refine ReflTransGen.mono (fun p id hp => ?_) _ _ h
  obtain ⟨c, hc, hmem⟩ := isParent_iff.1 hp
  exact isParent_iff.2 ⟨c, hcommits id c hc, hmem⟩

/-- where commits are only added, a stored commit keeps its parents -/
theorem isParent_extends_iff {r r' : Repository} (hcommits : Table.Extends r.commits r'.commits) {p id : CommitId}
    (hid : r.commits.contains id = true) : r'.IsParent p id ↔ r.IsParent p id := by
  obtain ⟨c, hc⟩ := Table.contains_eq_true.1 hid
  rw [IsParent, IsParent, parentsOf_of_get? hc, parentsOf_of_get? (hcommits id c hc)]

/-! ## The walk -/

theorem subset_walk (r : Repository) (seen queue : List CommitId) :
    (∀ x ∈ seen, x ∈ r.walk seen queue) ∧ ∀ x ∈ queue, x ∈ r.walk seen queue := by
  fun_induction walk r seen queue with
  | case1 seen => exact ⟨fun x hx => hx, fun x hx => absurd hx List.not_mem_nil⟩
  | case2 seen id queue hseen ih =>
    refine ⟨ih.1, fun x hx => ?_⟩
    rcases List.mem_cons.1 hx with rfl | hx
    · exact ih.1 x (by simpa using hseen)
    · exact ih.2 x hx
  | case3 seen id queue _ ih =>
    refine ⟨fun x hx => ih.1 x (List.mem_cons_of_mem _ hx), fun x hx => ?_⟩
    rcases List.mem_cons.1 hx with rfl | hx
    · exact ih.1 x List.mem_cons_self
    · exact ih.2 x (List.mem_append_left _ hx)

theorem walk_sound (r : Repository) (seen queue : List CommitId) :
    ∀ x ∈ r.walk seen queue, x ∈ seen ∨ ∃ q ∈ queue, r.Ancestor x q := by
  fun_induction walk r seen queue with
  | case1 seen => exact fun x hx => Or.inl hx
  | case2 seen id queue hseen ih =>
    intro x hx
    rcases ih x hx with h | ⟨q, hq, h⟩
    · exact Or.inl h
    · exact Or.inr ⟨q, List.mem_cons_of_mem _ hq, h⟩
  | case3 seen id queue _ ih =>
    intro x hx
    rcases ih x hx with h | ⟨q, hq, h⟩
    · rcases List.mem_cons.1 h with rfl | h
      · exact Or.inr ⟨x, List.mem_cons_self, Ancestor.refl r x⟩
      · exact Or.inl h
    · rcases List.mem_append.1 hq with hq | hq
      · exact Or.inr ⟨q, List.mem_cons_of_mem _ hq, h⟩
      · exact Or.inr ⟨id, List.mem_cons_self, h.trans (ReflTransGen.single hq)⟩

theorem nodup_walk {r : Repository} {seen : List CommitId} (hseen : seen.Nodup) (queue : List CommitId) :
    (r.walk seen queue).Nodup := by
  fun_induction walk r seen queue with
  | case1 seen => exact hseen
  | case2 seen id queue _ ih => exact ih hseen
  | case3 seen id queue hnew ih => exact ih (List.nodup_cons.2 ⟨by simpa using hnew, hseen⟩)

/-- the walk ends with a set that holds the parents of its members, if only queued parents are missing at first -/
theorem walk_closed (r : Repository) (seen queue : List CommitId)
    (hpending : ∀ x ∈ seen, ∀ p ∈ r.parentsOf x, p ∈ seen ∨ p ∈ queue) :
    ∀ x ∈ r.walk seen queue, ∀ p ∈ r.parentsOf x, p ∈ r.walk seen queue := by
  fun_induction walk r seen queue with
  | case1 seen =>
    intro x hx p hp
    rcases hpending x hx p hp with h | h
    · exact h
    · exact absurd h List.not_mem_nil
  | case2 seen id queue hseen ih =>
    refine ih (fun x hx p hp => ?_)
    rcases hpending x hx p hp with h | h
    · exact Or.inl h
    · rcases List.mem_cons.1 h with rfl | h
      · exact Or.inl (by simpa using hseen)
      · exact Or.inr h
  | case3 seen id queue _ ih =>
    refine ih (fun x hx p hp => ?_)
    rcases List.mem_cons.1 hx with rfl | hx
    · exact Or.inr (List.mem_append_right _ hp)
    · rcases hpending x hx p hp with h | h
      · exact Or.inl (List.mem_cons_of_mem _ h)
      · rcases List.mem_cons.1 h with rfl | h
        · exact Or.inl List.mem_cons_self
        · exact Or.inr (List.mem_append_left _ h)

theorem mem_ancestors {r : Repository} {a d : CommitId} : a ∈ r.ancestors d ↔ r.Ancestor a d := by
  constructor
  · intro h
    rcases walk_sound r [] [d] a h with h | ⟨q, hq, h⟩
    · exact absurd h List.not_mem_nil
    · rw [List.mem_singleton.1 hq] at h
      exact h
  · intro h
    have hclosed := walk_closed r [] [d] (fun x hx => absurd hx List.not_mem_nil)
    exact h.mem_of_closed (P := (· ∈ r.ancestors d)) ((subset_walk r [] [d]).2 d List.mem_cons_self) hclosed

theorem nodup_ancestors (r : Repository) (start : CommitId) : (r.ancestors start).Nodup := nodup_walk List.nodup_nil _

theorem isAncestor_iff {r : Repository} {a d : CommitId} : r.isAncestor a d = true ↔ r.Ancestor a d := by
  simp only [isAncestor, Bool.or_eq_true, beq_iff_eq, List.contains_iff_mem, mem_ancestors]
  constructor
  · rintro (rfl | h)
    · exact Ancestor.refl r a
    · exact h
  · exact Or.inr

theorem isAncestor_eq_false {r : Repository} {a d : CommitId} : r.isAncestor a d = false ↔ ¬r.Ancestor a d := by
  rw [← isAncestor_iff, Bool.not_eq_true]

/-! ## What is kept -/

theorem mem_cover {r : Repository} {covered : List CommitId} {root x : CommitId}
    (hclosed : ∀ d ∈ covered, ∀ a, r.Ancestor a d → a ∈ covered) :
    x ∈ r.cover covered root ↔ x ∈ covered ∨ r.Ancestor x root := by
  unfold cover
  split
  · rename_i hroot
    refine ⟨Or.inl, fun h => ?_⟩
    rcases h with h | h
    · exact h
    · exact hclosed root (by simpa using hroot) x h
  · rw [List.mem_append, mem_ancestors]

theorem mem_foldl_cover {r : Repository} (roots covered : List CommitId) (x : CommitId)
    (hclosed : ∀ d ∈ covered, ∀ a, r.Ancestor a d → a ∈ covered) :
    x ∈ roots.foldl r.cover covered ↔ x ∈ covered ∨ ∃ root ∈ roots, r.Ancestor x root := by
  induction roots generalizing covered with
  | nil => simp
  | cons root roots ih =>
    rw [List.foldl_cons, ih, mem_cover hclosed]
    · simp only [List.mem_cons, exists_eq_or_imp]
      exact or_assoc
    · intro d hd a ha
      rw [mem_cover hclosed] at hd ⊢
      rcases hd with hd | hd
      · exact Or.inl (hclosed d hd a ha)
      · exact Or.inr (ha.trans hd)

theorem mem_reachable {r : Repository} {x : CommitId} : x ∈ r.reachable ↔ ∃ root ∈ r.roots, r.Ancestor x root := by
  rw [reachable, mem_ascendingKeys, mem_foldl_cover _ _ _ (fun d hd => absurd hd List.not_mem_nil)]
  simp

theorem reachable_ext {r r' : Repository} (h : ∀ x, x ∈ r.reachable ↔ x ∈ r'.reachable) : r.reachable = r'.reachable :=
  ascendingKeys_congr (fun x => by simpa only [reachable, mem_ascendingKeys] using h x)

theorem nodup_reachable (r : Repository) : r.reachable.Nodup := nodup_ascendingKeys _

theorem mem_roots {r : Repository} {x : CommitId} :
    x ∈ r.roots ↔ (∃ name, r.branches.get? name = some x) ∨ r.headId = some x ∨ r.mergeHead = some x := by
  simp only [roots, List.mem_append, Table.mem_values, Option.mem_toList, or_assoc]

theorem reachable_of_root {r : Repository} {x : CommitId} (h : x ∈ r.roots) : x ∈ r.reachable :=
  mem_reachable.2 ⟨x, h, Ancestor.refl r x⟩

/-- commits are only added and every root is kept, so all that is kept stays kept -/
theorem reachable_mono {r r' : Repository} (hcommits : Table.Extends r.commits r'.commits)
    (hroots : ∀ root ∈ r.roots, root ∈ r'.reachable) : r.reachable ⊆ r'.reachable := by
  intro x hx
  obtain ⟨root, hroot, hold⟩ := mem_reachable.1 hx
  obtain ⟨root', hroot', hnew⟩ := mem_reachable.1 (hroots root hroot)
  exact mem_reachable.2 ⟨root', hroot', (hold.mono hcommits).trans hnew⟩

theorem reachable_closed {r : Repository} {x p : CommitId} (h : x ∈ r.reachable) (hp : p ∈ r.parentsOf x) :
    p ∈ r.reachable := by
  obtain ⟨root, hroot, hx⟩ := mem_reachable.1 h
  exact mem_reachable.2 ⟨root, hroot, Ancestor.of_parent hp hx⟩

end RepoTutor.Repo.Repository
