/-
Shapes found by a single walk in post-order, without recursion.

The walk begins at every commit in turn and keeps a stack. A commit on top of the stack is opened first: it stays there,
and those of its parents that have no shape yet are put on top of it. When it is on top again it is closed, with the shape
computed from the shapes that its parents have by then. A commit may stand on the stack several times, and a parent
without a shape would be left out of its child's.

Neither does harm where following parents ends. By induction over ancestry, the walk takes a commit off the stack with its
shape and leaves what is below as it was (`settles`); so all parents have their shapes when a commit is closed, and what
is on the stack once more is dropped when it comes up. From any well-formed repository the walk comes to its end, and
what it has found then are the shapes of `commitShapes` (`walk_ends`).
-/
import Mathlib.Logic.Function.Iterate
import RepoTutor.Proofs.Grading.Shapes

namespace RepoTutor.Grading

open Repo

/-- where a walk stands -/
structure ShapeWalk where
  /-- the commits to begin at -/
  roots : List CommitId
  /-- commits with whether they have been opened -/
  stack : List (CommitId × Bool)
  /-- the shapes that are found -/
  shapes : Table String

namespace ShapeWalk

def start (r : Repository) : ShapeWalk := ⟨r.commits.keys, [], .empty⟩

/-- parents that have no shape, above the commit itself; the last parent is on top -/
def openOn (shapes : Table String) (id : CommitId) (c : Commit) (stack : List (CommitId × Bool)) :
    List (CommitId × Bool) :=
  ((c.parents.filter (fun p => !shapes.contains p)).reverse.map (fun p => (p, false))) ++ (id, true) :: stack

/-- one entry of the stack, or the next root when the stack is empty; at the end, nothing changes -/
def step (r : Repository) (w : ShapeWalk) : ShapeWalk :=
  match w.stack with
  | [] =>
    match w.roots with
    | [] => w
    | root :: roots => { w with roots := roots, stack := [(root, false)] }
  | (id, opened) :: stack =>
    if w.shapes.contains id then { w with stack := stack }
    else
      match r.commits.get? id with
      | none => { w with stack := stack }
      | some c =>
        if opened then
          { w with stack := stack, shapes := w.shapes.insert id (shapeId (c.parents.filterMap w.shapes.get?)) }
        else { w with stack := openOn w.shapes id c stack }

/-- some steps lead from one place to the other -/
def Leads (r : Repository) (w w' : ShapeWalk) : Prop := ∃ n, (step r)^[n] w = w'

variable {r : Repository} {w w' w'' : ShapeWalk}

theorem Leads.refl (w : ShapeWalk) : Leads r w w := ⟨0, rfl⟩

theorem Leads.trans (h : Leads r w w') (h' : Leads r w' w'') : Leads r w w'' := by
  obtain ⟨n, rfl⟩ := h
  obtain ⟨m, rfl⟩ := h'
  exact ⟨m + n, Function.iterate_add_apply _ m n w⟩

theorem Leads.step_then (h : Leads r (step r w) w') : Leads r w w' := by
  obtain ⟨n, rfl⟩ := h
  exact ⟨n + 1, Function.iterate_succ_apply _ n w⟩

/-! ## One step -/

section Step

variable {roots : List CommitId} {stack : List (CommitId × Bool)} {shapes : Table String} {id : CommitId} {c : Commit}

theorem step_known {opened : Bool} (hknown : shapes.contains id = true) :
    step r ⟨roots, (id, opened) :: stack, shapes⟩ = ⟨roots, stack, shapes⟩ := by
  simp [step, hknown]

theorem step_open (hnew : ¬shapes.contains id = true) (hc : r.commits.get? id = some c) :
    step r ⟨roots, (id, false) :: stack, shapes⟩ = ⟨roots, openOn shapes id c stack, shapes⟩ := by
  simp [step, hnew, hc]

/-- a commit whose parents have their shapes is closed with the shape that it would be settled with -/
theorem step_close (hc : r.commits.get? id = some c) {found : List String}
    (hfound : c.parents.mapM shapes.get? = some found) :
    step r ⟨roots, (id, true) :: stack, shapes⟩ = ⟨roots, stack, settle shapes (id, c)⟩ := by
  by_cases hknown : shapes.contains id = true
  · simp [step, settle, hknown]
  · have hall : c.parents.filterMap shapes.get? = found := by
      have hmap : (c.parents.map shapes.get?).filterMap (fun s => s) = c.parents.filterMap shapes.get? := List.filterMap_map
      rw [← hmap, mapM_eq_some.1 hfound]
      exact List.filterMap_map.trans List.filterMap_some
    simp [step, settle, hknown, hc, hfound, hall]

end Step

/-! ## A commit and its past -/

/-- the walk takes these entries off the stack and leaves what is below; then these commits have their shapes -/
def Settles (r : Repository) (entries : List (CommitId × Bool)) (ids : List CommitId) : Prop :=
  ∀ roots stack shapes, Settled r shapes →
    ∃ shapes', Leads r ⟨roots, entries ++ stack, shapes⟩ ⟨roots, stack, shapes'⟩ ∧ shapes.Extends shapes'
      ∧ Settled r shapes' ∧ ∀ id ∈ ids, shapes'.contains id = true

/-- entries are taken off one after the other -/
theorem settles_all {ids : List CommitId} (h : ∀ id ∈ ids, Settles r [(id, false)] [id]) :
    Settles r (ids.map (fun id => (id, false))) ids := by
  induction ids with
  | nil => exact fun roots stack shapes hshapes => ⟨shapes, .refl _, .refl shapes, hshapes, by simp⟩
  | cons id ids ih =>
    intro roots stack shapes hshapes
    obtain ⟨shapes₁, hleads₁, hextends₁, hsettled₁, hid⟩ :=
      h id List.mem_cons_self roots (ids.map (fun id => (id, false)) ++ stack) shapes hshapes
    obtain ⟨shapes₂, hleads₂, hextends₂, hsettled₂, hids⟩ :=
      ih (fun id' hid' => h id' (List.mem_cons_of_mem id hid')) roots stack shapes₁ hsettled₁
    refine ⟨shapes₂, hleads₁.trans hleads₂, hextends₁.trans hextends₂, hsettled₂, ?_⟩
    rw [List.forall_mem_cons]
    exact ⟨hextends₂.contains (hid id (List.mem_singleton_self id)), hids⟩

/-- **A commit is taken off the stack with its shape.** -/
theorem settles_commit (hw : WellFormed r) (id : CommitId) (hid : r.commits.contains id = true) :
    Settles r [(id, false)] [id] := by
  -- by induction over ancestry: whatever stands on the stack below, the parents are taken off before their child
  induction id using hw.acyclic.induction with
  | _ id ih =>
    intro roots stack shapes hshapes
    simp only [List.forall_mem_singleton]
    by_cases hknown : shapes.contains id = true
    · refine ⟨shapes, .step_then ?_, .refl shapes, hshapes, hknown⟩
      rw [List.singleton_append, step_known hknown]
      exact .refl _
    · obtain ⟨c, hc⟩ := Table.contains_eq_true.1 hid
      have hnew : ∀ p ∈ (c.parents.filter (fun p => !shapes.contains p)).reverse, Settles r [(p, false)] [p] := by
        intro p hp
        have hparent : p ∈ c.parents := (List.mem_filter.1 (List.mem_reverse.1 hp)).1
        exact ih p (Repository.isParent_iff.2 ⟨c, hc, hparent⟩) ((hw.commit id c hc).parents p hparent)
      obtain ⟨shapes₁, hleads, hextends, hsettled, hparents⟩ :=
        settles_all hnew roots ((id, true) :: stack) shapes hshapes
      have hall : ∀ p ∈ c.parents, ∃ s, shapes₁.get? p = some s := by
        intro p hp
        refine Table.contains_eq_true.1 ?_
        by_cases hold : shapes.contains p = true
        · exact hextends.contains hold
        · exact hparents p (List.mem_reverse.2 (List.mem_filter.2 ⟨hp, by simpa using hold⟩))
      obtain ⟨found, hfound⟩ := exists_mapM_eq_some hall
      refine ⟨settle shapes₁ (id, c), ?_, hextends.trans (settle_extends shapes₁ (id, c)),
        hsettled.settle (Table.get?_eq_some_iff.1 hc), settle_contains hfound⟩
      refine .step_then ?_
      rw [List.singleton_append, step_open hknown hc]
      refine hleads.trans (.step_then ?_)
      rw [step_close hc hfound]
      exact .refl _

/-! ## The whole walk -/

/-- from every root that is left, down to the empty stack -/
theorem leads_through_roots (hw : WellFormed r) {roots : List CommitId}
    (hroots : ∀ id ∈ roots, r.commits.contains id = true) {shapes : Table String} (hshapes : Settled r shapes) :
    ∃ shapes', Leads r ⟨roots, [], shapes⟩ ⟨[], [], shapes'⟩ ∧ shapes.Extends shapes' ∧ Settled r shapes'
      ∧ ∀ id ∈ roots, shapes'.contains id = true := by
  induction roots generalizing shapes with
  | nil => exact ⟨shapes, .refl _, .refl shapes, hshapes, by simp⟩
  | cons root roots ih =>
    rw [List.forall_mem_cons] at hroots
    obtain ⟨shapes₁, hleads₁, hextends₁, hsettled₁, hroot⟩ :=
      settles_commit hw root hroots.1 roots [] shapes hshapes
    obtain ⟨shapes₂, hleads₂, hextends₂, hsettled₂, hrest⟩ := ih hroots.2 hsettled₁
    refine ⟨shapes₂, .step_then (hleads₁.trans hleads₂), hextends₁.trans hextends₂, hsettled₂, ?_⟩
    rw [List.forall_mem_cons]
    exact ⟨hextends₂.contains (hroot root (List.mem_singleton_self root)), hrest⟩

/-- shapes computed from each other that leave no commit out are the shapes -/
theorem eq_commitShapes (hw : WellFormed r) {shapes : Table String} (h : Settled r shapes)
    (hall : ∀ id, r.commits.contains id = true → shapes.contains id = true) : shapes = commitShapes r := by
  have hstored : ∀ id, r.commits.contains id = true → shapes.get? id = some (shape r id) := by
    intro id hid
    induction id using hw.acyclic.induction with
    | _ id ih =>
      obtain ⟨s, hs⟩ := Table.contains_eq_true.1 (hall id hid)
      obtain ⟨c, found, hc, hfound, rfl⟩ := h id s hs
      have hparents : c.parents.mapM shapes.get? = some (c.parents.map (shape r)) := by
        rw [mapM_eq_some, List.map_map]
        exact List.map_congr_left (fun p hp =>
          ih p (Repository.isParent_iff.2 ⟨c, hc, hp⟩) ((hw.commit id c hc).parents p hp))
      cases hfound.symm.trans hparents
      rw [hs, shape_eq hw hid, Repository.parentsOf_of_get? hc]
  refine Table.ext_get? (fun id => ?_)
  by_cases hid : r.commits.contains id = true
  · rw [hstored id hid, get?_shape hw hid]
  · -- what is no commit has no shape
    have hnone : ∀ s, shapes.get? id ≠ some s := by
      intro s hs
      obtain ⟨c, -, hc, -⟩ := h id s hs
      exact hid (Table.contains_of_get? hc)
    have hcommit : r.commits.get? id = none := by simpa [Table.contains] using hid
    rw [Option.eq_none_iff_forall_ne_some.2 hnone, commitShapes_get? hw, hcommit, Option.map_none]

/-- **The walk ends with the shapes of all commits.** -/
theorem walk_ends (hw : WellFormed r) : Leads r (start r) ⟨[], [], commitShapes r⟩ := by
  have hempty : Settled r .empty := fun id s hs => by simp at hs
  obtain ⟨shapes, hleads, -, hsettled, hroots⟩ :=
    leads_through_roots hw (fun id hid => Table.contains_iff_mem_keys.2 hid) hempty
  rw [← eq_commitShapes hw hsettled (fun id hid => hroots id (Table.contains_iff_mem_keys.1 hid))]
  exact hleads

end ShapeWalk

end RepoTutor.Grading
