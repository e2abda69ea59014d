/-
The tree that a commit's shape stands for.

Following the parents of a commit in order, over all generations, unfolds its history into a tree (`ancestryTree`); where
lines of history join, what is before them is in the tree once for each line. A shape is the digest of the parents' shapes
with commas between them. Shapes have no commas, so what is hashed tells the shapes of the parents (`hashedShapes_inj`),
and by induction two shapes are equal exactly when the trees are, unless the digests of different inputs agree
(`shape_eq_iff_ancestryTree`).
-/
import Mathlib.Data.Set.Function
import RepoTutor.Proofs.Grading.JoinedShapes
import RepoTutor.Proofs.Grading.ShapeWalk
import RepoTutor.Proofs.Repo.Identity
import RepoTutor.Proofs.Text.Splitting
import RepoTutor.Proofs.Transition.MergeBases

namespace RepoTutor.Grading

open Repo Transition

/-! ## Trees -/

/-- a commit with the trees of its parents in order -/
inductive AncestryTree where
  | node (parents : List AncestryTree)

/-- the history of a commit, unfolded; what is not stored has no parents -/
def ancestryTree {r : Repository} (h : r.Acyclic) (id : CommitId) : AncestryTree :=
  .node ((r.parentsOf id).attach.map (fun p => ancestryTree h p.1))
termination_by WellFounded.wrap (r := r.IsParent) h id
decreasing_by exact p.2

theorem ancestryTree_eq {r : Repository} (h : r.Acyclic) (id : CommitId) :
    ancestryTree h id = .node ((r.parentsOf id).map (ancestryTree h)) := by
  rw [ancestryTree, List.attach_map_val]

theorem ancestryTree_root {r : Repository} (h : r.Acyclic) {id : CommitId} (hroot : r.parentsOf id = []) :
    ancestryTree h id = .node [] := by
  rw [ancestryTree_eq, hroot, List.map_nil]

/-! ## What is hashed -/

/-- the bytes that a shape is the digest of -/
def hashedShapes (parentShapes : List String) : List UInt8 :=
  hashedBytes "gitdojo-shape-v1\n" (Text.joinWith "," parentShapes)

theorem shapeId_eq (parentShapes : List String) : shapeId parentShapes = Hash.sha256 (hashedShapes parentShapes) := rfl

/-- what the shapes of a repository's commits are digests of -/
def shapeInputs (r : Repository) : Set (List UInt8) :=
  {input | ∃ id, r.commits.contains id = true ∧ hashedShapes ((r.parentsOf id).map (shape r)) = input}

/-- a shape, like every digest, has no commas in it -/
theorem shapeId_separable (parentShapes : List String) :
    ',' ∉ (shapeId parentShapes).toList ∧ shapeId parentShapes ≠ "" :=
  ⟨fun h => absurd (Hash.mem_sha256 h) (by decide), Hash.sha256_ne_empty _⟩

/-- what is hashed tells the shapes of the parents -/
theorem hashedShapes_inj {found found' : List String} (h : ∀ s ∈ found, ∃ ps, s = shapeId ps)
    (h' : ∀ s ∈ found', ∃ ps, s = shapeId ps) : hashedShapes found = hashedShapes found' ↔ found = found' := by
  have hseparable : ∀ {l : List String}, (∀ s ∈ l, ∃ ps, s = shapeId ps) → ∀ s ∈ l, ',' ∉ s.toList ∧ s ≠ "" := by
    intro l hl s hs
    obtain ⟨ps, rfl⟩ := hl s hs
    exact shapeId_separable ps
  rw [hashedShapes, hashedShapes, hashedBytes_inj]
  exact ⟨Text.joinWith_inj (hseparable h) (hseparable h'), congrArg _⟩

/-! ## Shapes and trees -/

/-- two lists are mapped alike by one pair of functions if they are by another that tells the same members apart -/
theorem map_eq_map_congr {α β γ δ : Type} {f : α → γ} {g : β → γ} {f' : α → δ} {g' : β → δ} {l : List α} {l' : List β}
    (h : ∀ a ∈ l, ∀ b ∈ l', (f a = g b ↔ f' a = g' b)) : l.map f = l'.map g ↔ l.map f' = l'.map g' := by
  induction l generalizing l' with
  | nil => cases l' <;> simp
  | cons a l ih =>
    cases l' with
    | nil => simp
    | cons b l' =>
      simp only [List.map_cons, List.cons.injEq]
      refine and_congr (h a List.mem_cons_self b List.mem_cons_self) (ih (fun a' ha' b' hb' => ?_))
      exact h a' (List.mem_cons_of_mem a ha') b' (List.mem_cons_of_mem b hb')

section Shapes

variable {r s : Repository}

theorem parents_have_shapes (hr : WellFormed r) (id : CommitId) :
    ∀ found ∈ (r.parentsOf id).map (shape r), ∃ ps, found = shapeId ps := by
  intro found hfound
  obtain ⟨p, hp, rfl⟩ := List.mem_map.1 hfound
  exact ⟨_, shape_eq hr (hr.parent_stored hp)⟩

/-- **Shapes are equal exactly when the unfolded histories are.** -/
theorem shape_eq_iff_ancestryTree (hr : WellFormed r) (hs : WellFormed s)
    (hinj : Set.InjOn Hash.sha256 (shapeInputs r ∪ shapeInputs s)) {x y : CommitId}
    (hx : r.commits.contains x = true) (hy : s.commits.contains y = true) :
    shape r x = shape s y ↔ ancestryTree hr.acyclic x = ancestryTree hs.acyclic y := by
  induction x using hr.acyclic.induction generalizing y with
  | _ x ih =>
    calc shape r x = shape s y
      _ ↔ hashedShapes ((r.parentsOf x).map (shape r)) = hashedShapes ((s.parentsOf y).map (shape s)) := by
        rw [shape_eq hr hx, shape_eq hs hy, shapeId_eq, shapeId_eq]
        exact hinj.eq_iff (Or.inl ⟨x, hx, rfl⟩) (Or.inr ⟨y, hy, rfl⟩)
      _ ↔ (r.parentsOf x).map (shape r) = (s.parentsOf y).map (shape s) :=
        hashedShapes_inj (parents_have_shapes hr x) (parents_have_shapes hs y)
      _ ↔ (r.parentsOf x).map (ancestryTree hr.acyclic) = (s.parentsOf y).map (ancestryTree hs.acyclic) :=
        map_eq_map_congr (fun p hp q hq => ih p hp (hr.parent_stored hp) (hs.parent_stored hq))
      _ ↔ ancestryTree hr.acyclic x = ancestryTree hs.acyclic y := by
        rw [ancestryTree_eq, ancestryTree_eq, AncestryTree.node.injEq]

end Shapes

/-- **Shapes are found for all commits and tell their ancestry.** On an accepted repository the walk ends; every commit
has got the shape that is computed from the shapes of all its parents in order. If the digest tells apart what is hashed
in two accepted repositories, their commits have equal shapes exactly when their unfolded histories are equal. -/
theorem shapes_tell_ancestry :
    (∀ r : Repository, r.check = .ok () →
      (∃ n, (ShapeWalk.step r)^[n] (.start r) = ⟨[], [], commitShapes r⟩)
        ∧ ∀ id c, r.commits.get? id = some c →
            ∃ parentShapes, c.parents.mapM (commitShapes r).get? = some parentShapes
              ∧ (commitShapes r).get? id = some (shapeId parentShapes))
      ∧ ∀ (r s : Repository) (hr : r.check = .ok ()) (hs : s.check = .ok ()),
          Set.InjOn Hash.sha256 (shapeInputs r ∪ shapeInputs s) →
            ∀ x y, r.commits.contains x = true → s.commits.contains y = true →
              ((commitShapes r).get? x = (commitShapes s).get? y ↔
                ancestryTree (Repository.check_eq_ok.1 hr).acyclic x
                  = ancestryTree (Repository.check_eq_ok.1 hs).acyclic y) := by
  refine ⟨fun r hr => ?_, fun r s hr hs hinj x y hx hy => ?_⟩
  · have hw := Repository.check_eq_ok.1 hr
    refine ⟨ShapeWalk.walk_ends hw, fun id c hc => ⟨c.parents.map (shape r), ?_, ?_⟩⟩
    · rw [mapM_eq_some, List.map_map]
      exact List.map_congr_left (fun p hp => get?_shape hw ((hw.commit id c hc).parents p hp))
    · rw [commitShapes_get? hw, hc, Option.map_some]
  · have hwr := Repository.check_eq_ok.1 hr
    have hws := Repository.check_eq_ok.1 hs
    rw [get?_shape hwr hx, get?_shape hws hy, Option.some.injEq]
    exact shape_eq_iff_ancestryTree hwr hws hinj hx hy

/-! ## A history with a merge -/

/-- the digests of the three are different -/
theorem injOn_firstParents : Set.InjOn Hash.sha256 {input | input ∈ firstParents.map hashedShapes} := by
  have hdigests : (firstParents.map hashedShapes).map Hash.sha256 = firstShapes := by
    rw [List.map_map]
    exact map_shapeId_firstParents
  have hnodup : ((firstParents.map hashedShapes).map Hash.sha256).Nodup := by
    rw [hdigests]
    decide
  intro input hinput input' hinput' h
  exact List.inj_on_of_nodup_map hnodup hinput hinput' h

theorem shapeInputs_joined {a b c : Commit} (h : Joins a b c) :
    shapeInputs (joinedHistory a b c) ⊆ {input | input ∈ firstParents.map hashedShapes} := by
  rintro input ⟨id, hid, rfl⟩
  exact List.mem_map_of_mem (h.parentShapes_mem (h.mem_reachable.2 (contains_joinedHistory.1 hid)))

theorem shapeInputs_lone {c : Commit} (hparents : c.parents = []) :
    shapeInputs (lone c) ⊆ {input | input ∈ firstParents.map hashedShapes} := by
  rintro input ⟨id, -, rfl⟩
  rw [parentsOf_lone hparents, List.map_nil]
  exact List.mem_map_of_mem (by decide)

/-- a first commit looks like every other first commit, and not like the merge commit that comes after it -/
theorem joined_history_shapes :
    let other : Commit := .make [] defaultAuthor 1 "another" .empty
    rejoined.check = .ok () ∧ (lone other).check = .ok ()
      ∧ Set.InjOn Hash.sha256 (shapeInputs rejoined ∪ shapeInputs (lone other))
      ∧ (∃ n, (ShapeWalk.step rejoined)^[n] (.start rejoined) = ⟨[], [], commitShapes rejoined⟩)
      ∧ (commitShapes rejoined).get? olderCommit.id = (commitShapes (lone other)).get? other.id
      ∧ (commitShapes rejoined).get? joinedCommit.id ≠ (commitShapes (lone other)).get? other.id := by
  intro other
  have hr : rejoined.check = .ok () := Repository.check_eq_ok.2 rejoined_cleanRun.reachable.wellFormed
  have hs : (lone other).check = .ok () := Repository.check_eq_ok.2 (lone_reachable "another").wellFormed
  have hinj : Set.InjOn Hash.sha256 (shapeInputs rejoined ∪ shapeInputs (lone other)) :=
    injOn_firstParents.mono (Set.union_subset (shapeInputs_joined rejoined_joins) (shapeInputs_lone rfl))
  have hother : (lone other).commits.contains other.id = true := by simp [lone, Table.contains_insert]
  have hroot : (lone other).parentsOf other.id = [] := parentsOf_lone rfl _
  obtain ⟨hwalk, htell⟩ := shapes_tell_ancestry
  have htrees := htell rejoined (lone other) hr hs hinj
  refine ⟨hr, hs, hinj, (hwalk rejoined hr).1, ?_, fun h => ?_⟩
  · refine (htrees _ _ (rejoined_contains.2 (by simp)) hother).2 ?_
    rw [ancestryTree_root _ rejoined_parents_older, ancestryTree_root _ hroot]
  · have hsame := (htrees _ _ (rejoined_contains.2 (by simp)) hother).1 h
    rw [ancestryTree_eq, rejoined_parents, ancestryTree_root _ hroot] at hsame
    simp at hsame

end RepoTutor.Grading
