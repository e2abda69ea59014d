/-
The search for cycles finds one exactly when there is one.

The search keeps a stack of open commits, each reached from the commit below it as one of its parents, and a list of
closed commits in which every commit stands before all its parents. Both facts are one invariant (`Search`), kept by
every step of `visit`:
- a finished search has closed everything it opened, and commits listed before their parents have no infinite descent
  (`acc_of_childrenFirst`), so an accepted repository is acyclic;
- the stack is a path, so an open commit met again would be its own proper ancestor, and an acyclic repository is
  accepted.

`checkAcyclic_eq_ok` puts both together.
-/
import RepoTutor.Proofs.Repo.Ancestry
import RepoTutor.Repo.Invariant

namespace RepoTutor.Repo.Repository

open Relation (TransGen)

/-! ## Closed commits -/

/-- every commit of the list stands before all its parents -/
def ChildrenFirst (r : Repository) : List CommitId → Prop
  | [] => True
  | id :: rest => (∀ p, r.IsParent p id → p ∈ rest) ∧ ChildrenFirst r rest

theorem acc_of_childrenFirst {r : Repository} {l : List CommitId} (h : r.ChildrenFirst l) :
    ∀ id ∈ l, Acc r.IsParent id := by
  induction l with
  | nil => exact fun id hid => absurd hid List.not_mem_nil
  | cons a rest ih =>
    have hrest := ih h.2
    intro id hid
    rcases List.mem_cons.1 hid with rfl | hid
    · exact ⟨_, fun p hp => hrest p (h.1 p hp)⟩
    · exact hrest id hid

/-! ## Open commits -/

/-- the stack is a path to older commits, and a parent of an open commit is closed, still to visit, or the commit above -/
def Tracked (r : Repository) (closed : List CommitId) : Option CommitId → List Visit → Prop
  | _, [] => True
  | above, (id, ps) :: rest =>
    ((∀ p ∈ ps, r.IsParent p id) ∧ (∀ p, r.IsParent p id → p ∈ closed ∨ p ∈ ps ∨ above = some p)
      ∧ ∀ a, above = some a → r.IsParent a id) ∧ Tracked r closed (some id) rest

theorem Tracked.mono {r : Repository} {closed closed' : List CommitId} (hsub : ∀ x ∈ closed, x ∈ closed')
    {above : Option CommitId} {stack : List Visit} (h : r.Tracked closed above stack) :
    r.Tracked closed' above stack := by
  induction stack generalizing above with
  | nil => trivial
  | cons v rest ih =>
    obtain ⟨⟨h1, h2, h3⟩, hrest⟩ := h
    exact ⟨⟨h1, fun p hp => (h2 p hp).imp_left (hsub p), h3⟩, ih hrest⟩

/-- closing the commit above leaves the rest of the stack tracked -/
theorem Tracked.close {r : Repository} {closed : List CommitId} {id : CommitId} {stack : List Visit}
    (h : r.Tracked closed (some id) stack) : r.Tracked (id :: closed) none stack := by
  cases stack with
  | nil => trivial
  | cons v rest =>
    obtain ⟨⟨h1, h2, -⟩, hrest⟩ := h
    refine ⟨⟨h1, fun p hp => ?_, fun a ha => absurd ha (by simp)⟩, hrest.mono (fun x => List.mem_cons_of_mem _)⟩
    rcases h2 p hp with h | h | h
    · exact Or.inl (List.mem_cons_of_mem _ h)
    · exact Or.inr (Or.inl h)
    · exact Or.inl (by simp only [Option.some.injEq] at h; simp [h])

/-- the commit above a stack is a proper ancestor of everything on it -/
theorem Tracked.properAncestor {r : Repository} {closed : List CommitId} {a : CommitId} {stack : List Visit}
    (h : r.Tracked closed (some a) stack) : ∀ v ∈ stack, r.ProperAncestor a v.1 := by
  induction stack generalizing a with
  | nil => exact fun v hv => absurd hv List.not_mem_nil
  | cons w rest ih =>
    obtain ⟨⟨-, -, h3⟩, hrest⟩ := h
    intro v hv
    rcases List.mem_cons.1 hv with rfl | hv
    · exact TransGen.single (h3 a rfl)
    · exact TransGen.head (h3 a rfl) (ih hrest v hv)

/-! ## One search -/

/-- what holds between two steps of the search -/
structure Search (r : Repository) (m : Colours) (stack : List Visit) : Prop where
  order : r.ChildrenFirst m.closed
  tracked : r.Tracked m.closed none stack
  opened : ∀ id ∈ m.opened, id ∈ m.closed ∨ ∃ v ∈ stack, v.1 = id

theorem Search.nothing (r : Repository) : r.Search ⟨[], []⟩ [] :=
  ⟨trivial, trivial, fun _ hid => absurd hid List.not_mem_nil⟩

theorem Search.pop {r : Repository} {m : Colours} {id : CommitId} {stack : List Visit}
    (h : r.Search m ((id, []) :: stack)) : r.Search { m with closed := id :: m.closed } stack := by
  obtain ⟨⟨-, hparents, -⟩, hrest⟩ := h.tracked
  refine ⟨⟨fun p hp => ?_, h.order⟩, hrest.close, fun x hx => ?_⟩
  · rcases hparents p hp with h | h | h
    · exact h
    · exact absurd h List.not_mem_nil
    · exact absurd h (by simp)
  · rcases h.opened x hx with h | ⟨v, hv, rfl⟩
    · exact Or.inl (List.mem_cons_of_mem _ h)
    · rcases List.mem_cons.1 hv with rfl | hv
      · exact Or.inl List.mem_cons_self
      · exact Or.inr ⟨v, hv, rfl⟩

theorem Search.skip {r : Repository} {m : Colours} {id p : CommitId} {ps : List CommitId} {stack : List Visit}
    (h : r.Search m ((id, p :: ps) :: stack)) (hp : p ∈ m.closed) : r.Search m ((id, ps) :: stack) := by
  obtain ⟨⟨hps, hparents, habove⟩, hrest⟩ := h.tracked
  refine ⟨h.order, ⟨⟨fun q hq => hps q (List.mem_cons_of_mem _ hq), fun q hq => ?_, habove⟩, hrest⟩, fun x hx => ?_⟩
  · rcases hparents q hq with h | h | h
    · exact Or.inl h
    · rcases List.mem_cons.1 h with rfl | h
      · exact Or.inl hp
      · exact Or.inr (Or.inl h)
    · exact Or.inr (Or.inr h)
  · rcases h.opened x hx with h | ⟨v, hv, rfl⟩
    · exact Or.inl h
    · rcases List.mem_cons.1 hv with rfl | hv
      · exact Or.inr ⟨(id, ps), List.mem_cons_self, rfl⟩
      · exact Or.inr ⟨v, List.mem_cons_of_mem _ hv, rfl⟩

theorem Search.push {r : Repository} {m : Colours} {id p : CommitId} {ps : List CommitId} {stack : List Visit}
    (h : r.Search m ((id, p :: ps) :: stack)) :
    r.Search { m with opened := p :: m.opened } ((p, r.parentsOf p) :: (id, ps) :: stack) := by
  obtain ⟨⟨hps, hparents, habove⟩, hrest⟩ := h.tracked
  have htop : ((∀ q ∈ r.parentsOf p, r.IsParent q p) ∧
      (∀ q, r.IsParent q p → q ∈ m.closed ∨ q ∈ r.parentsOf p ∨ none = some q) ∧
      ∀ a, none = some a → r.IsParent a p) :=
    ⟨fun q hq => hq, fun q hq => Or.inr (Or.inl hq), fun a ha => absurd ha (by simp)⟩
  refine ⟨h.order, ⟨htop, ⟨fun q hq => hps q (List.mem_cons_of_mem _ hq), fun q hq => ?_, fun a ha => ?_⟩, hrest⟩,
    fun x hx => ?_⟩
  · rcases hparents q hq with h | h | h
    · exact Or.inl h
    · rcases List.mem_cons.1 h with rfl | h
      · exact Or.inr (Or.inr rfl)
      · exact Or.inr (Or.inl h)
    · exact absurd h (by simp)
  · simp only [Option.some.injEq] at ha
    exact ha ▸ hps p List.mem_cons_self
  · rcases List.mem_cons.1 hx with rfl | hx
    · exact Or.inr ⟨(x, r.parentsOf x), List.mem_cons_self, rfl⟩
    · rcases h.opened x hx with h | ⟨v, hv, rfl⟩
      · exact Or.inl h
      · rcases List.mem_cons.1 hv with rfl | hv
        · exact Or.inr ⟨(id, ps), by simp, rfl⟩
        · exact Or.inr ⟨v, List.mem_cons_of_mem _ (List.mem_cons_of_mem _ hv), rfl⟩

/-- an open commit met again is its own proper ancestor -/
theorem Search.cycle {r : Repository} {m : Colours} {id p : CommitId} {ps : List CommitId} {stack : List Visit}
    (h : r.Search m ((id, p :: ps) :: stack)) (hopen : p ∈ m.opened) (hclosed : p ∉ m.closed) :
    r.ProperAncestor p p := by
  obtain ⟨⟨hps, -, -⟩, hrest⟩ := h.tracked
  have hparent : r.IsParent p id := hps p List.mem_cons_self
  rcases h.opened p hopen with h | ⟨v, hv, hvp⟩
  · exact absurd h hclosed
  · rcases List.mem_cons.1 hv with rfl | hv
    · exact TransGen.single (by rwa [← hvp] at hparent ⊢)
    · exact TransGen.head hparent (hvp ▸ hrest.properAncestor v hv)

/-- a search that ends has closed all that it opened -/
theorem visit_closes {r : Repository} {m m' : Colours} {stack : List Visit} (h : r.Search m stack)
    (hv : r.visit m stack = .inr m') : r.Search m' [] ∧ ∀ id ∈ m.opened, id ∈ m'.opened := by
  fun_induction visit r m stack with
  | case1 m =>
    simp only [Sum.inr.injEq] at hv
    subst hv
    exact ⟨h, fun id hid => hid⟩
  | case2 m node stack ih => exact ih h.pop hv
  | case3 m node p ps stack hclosed ih => exact ih (h.skip (by simpa using hclosed)) hv
  | case4 m node p ps stack _ _ => simp at hv
  | case5 m node p ps stack _ _ ih =>
    obtain ⟨h1, h2⟩ := ih h.push hv
    exact ⟨h1, fun id hid => h2 id (List.mem_cons_of_mem _ hid)⟩

/-- what a search reports is its own proper ancestor -/
theorem visit_reports_cycle {r : Repository} {m : Colours} {stack : List Visit} (h : r.Search m stack) {id : CommitId}
    (hv : r.visit m stack = .inl id) : r.ProperAncestor id id := by
  fun_induction visit r m stack with
  | case1 m => cases hv
  | case2 m node stack ih => exact ih h.pop hv
  | case3 m node p ps stack hclosed ih => exact ih (h.skip (by simpa using hclosed)) hv
  | case4 m node p ps stack hclosed hopened =>
    cases hv
    exact h.cycle (by simpa using hopened) (by simpa using hclosed)
  | case5 m node p ps stack _ _ ih => exact ih h.push hv

theorem visit_of_acyclic {r : Repository} {m : Colours} {stack : List Visit} (hr : r.Acyclic)
    (h : r.Search m stack) : ∃ m', r.visit m stack = .inr m' := by
  cases hv : r.visit m stack with
  | inl id => exact absurd (visit_reports_cycle h hv) (hr.irrefl id)
  | inr m' => exact ⟨m', rfl⟩

/-! ## The whole check -/

theorem Search.start {r : Repository} {m : Colours} (h : r.Search m []) (root : CommitId) :
    r.Search { m with opened := root :: m.opened } [(root, r.parentsOf root)] := by
  refine ⟨h.order, ⟨⟨fun q hq => hq, fun q hq => Or.inr (Or.inl hq), fun a ha => absurd ha (by simp)⟩, trivial⟩,
    fun x hx => ?_⟩
  rcases List.mem_cons.1 hx with rfl | hx
  · exact Or.inr ⟨(x, r.parentsOf x), List.mem_cons_self, rfl⟩
  · rcases h.opened x hx with h | ⟨v, hv, -⟩
    · exact Or.inl h
    · exact absurd hv List.not_mem_nil

theorem Search.closed_of_opened {r : Repository} {m : Colours} (h : r.Search m []) {id : CommitId}
    (hid : id ∈ m.opened) : id ∈ m.closed := by
  rcases h.opened id hid with h | ⟨v, hv, -⟩
  · exact h
  · exact absurd hv List.not_mem_nil

theorem checkAcyclicFrom_closes {r : Repository} {m : Colours} {roots : List CommitId} (h : r.Search m [])
    (hc : r.checkAcyclicFrom m roots = .ok ()) :
    ∃ m', r.Search m' [] ∧ (∀ id ∈ m.opened, id ∈ m'.opened) ∧ ∀ root ∈ roots, root ∈ m'.opened := by
  induction roots generalizing m with
  | nil => exact ⟨m, h, fun id hid => hid, fun root hroot => absurd hroot List.not_mem_nil⟩
  | cons root rest ih =>
    simp only [checkAcyclicFrom] at hc
    split at hc
    · rename_i hroot
      obtain ⟨m', h1, h2, h3⟩ := ih h hc
      refine ⟨m', h1, h2, fun x hx => ?_⟩
      rcases List.mem_cons.1 hx with rfl | hx
      · exact h2 x (by simpa using hroot)
      · exact h3 x hx
    · split at hc
      · simp at hc
      · rename_i m₁ hv
        obtain ⟨hs, hsub⟩ := visit_closes (h.start root) hv
        obtain ⟨m', h1, h2, h3⟩ := ih hs hc
        refine ⟨m', h1, fun x hx => h2 x (hsub x (List.mem_cons_of_mem _ hx)), fun x hx => ?_⟩
        rcases List.mem_cons.1 hx with rfl | hx
        · exact h2 x (hsub x List.mem_cons_self)
        · exact h3 x hx

theorem checkAcyclicFrom_of_acyclic {r : Repository} (hr : r.Acyclic) {m : Colours} (roots : List CommitId)
    (h : r.Search m []) : r.checkAcyclicFrom m roots = .ok () := by
  induction roots generalizing m with
  | nil => rfl
  | cons root rest ih =>
    simp only [checkAcyclicFrom]
    split
    · exact ih h
    · obtain ⟨m', hv⟩ := visit_of_acyclic hr (h.start root)
      rw [hv]
      exact ih (visit_closes (h.start root) hv).1

/-- **Cycles are found.** The check passes exactly when following parents ends from every commit. -/
theorem checkAcyclic_eq_ok {r : Repository} : r.checkAcyclic = .ok () ↔ r.Acyclic := by
  constructor
  · intro h
    obtain ⟨m, hm, -, hroots⟩ := checkAcyclicFrom_closes (.nothing r) h
    refine ⟨fun id => ⟨id, fun p hp => ?_⟩⟩
    -- only commits have parents, and every commit was a root of the search
    obtain ⟨c, hc, -⟩ := isParent_iff.1 hp
    have hid := hm.closed_of_opened (hroots id (Table.mem_keys.2 ⟨c, hc⟩))
    exact (acc_of_childrenFirst hm.order id hid).inv hp
  · exact fun h => checkAcyclicFrom_of_acyclic h r.commits.keys (.nothing r)

end RepoTutor.Repo.Repository
