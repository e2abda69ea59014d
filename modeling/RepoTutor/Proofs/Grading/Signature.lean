/-
What equal signatures say about two histories.

The shape of a commit tells its past and nothing else (`shape_eq_iff_samePast`), so equal signatures are a bijection that
carries every commit to one with the same past. This need not be an isomorphism of the histories: when several commits
have the same past, shapes do not tell from which of them the history goes on. `signature_eq_iff` says both, and that the
bijection can be made an isomorphism if no two commits that look alike are continued from in two places
(`UnambiguousParents`).
-/
import Mathlib.Data.Finset.Max
import Mathlib.SetTheory.Ordinal.Rank
import RepoTutor.Proofs.Grading.JoinedShapes
import RepoTutor.Proofs.Grading.Matching
import RepoTutor.Proofs.Transition.JoinedParents
import RepoTutor.Proofs.Transition.MergeBases

namespace RepoTutor.Grading

open Repo Transition

/-- some pairing has the two commits, and with any two commits that it has their parents in order -/
def SamePast (r s : Repository) (x y : CommitId) : Prop :=
  ∃ R : CommitId → CommitId → Prop, R x y ∧ ∀ a b, R a b → List.Forall₂ R (r.parentsOf a) (s.parentsOf b)

/-- what the shapes of the kept commits are computed from -/
def parentShapes (r : Repository) : List (List String) := r.reachable.map (fun x => (r.parentsOf x).map (shape r))

/-- no two of the shapes that occur in the two histories are equal by chance -/
def DistinctShapes (r s : Repository) : Prop :=
  ∀ ps ∈ parentShapes r ++ parentShapes s, ∀ qs ∈ parentShapes r ++ parentShapes s, shapeId ps = shapeId qs → ps = qs

/-- history goes on in one place at most from two commits with the same past -/
def UnambiguousParents (r : Repository) : Prop :=
  ∀ p ∈ r.reachable, ∀ q ∈ r.reachable, p ≠ q → SamePast r r p q →
    ∀ c ∈ r.reachable, ∀ d ∈ r.reachable, p ∈ r.parentsOf c → p ∈ r.parentsOf d ∨ q ∈ r.parentsOf d → c = d

/-! ## Shapes tell the past -/

theorem mem_parentShapes {r : Repository} {x : CommitId} (hx : x ∈ r.reachable) :
    (r.parentsOf x).map (shape r) ∈ parentShapes r :=
  List.mem_map.2 ⟨x, hx, rfl⟩

theorem DistinctShapes.left {r s : Repository} (h : DistinctShapes r s) : DistinctShapes r r := by
  have hsub : ∀ ps ∈ parentShapes r ++ parentShapes r, ps ∈ parentShapes r ++ parentShapes s :=
    fun ps hps => List.mem_append_left _ ((List.mem_append.1 hps).elim id id)
  exact fun ps hps qs hqs heq => h ps (hsub ps hps) qs (hsub qs hqs) heq

/-- commits of one shape have parents of the same shapes in order -/
theorem DistinctShapes.parents {r s : Repository} (h : DistinctShapes r s) (hr : WellFormed r) (hs : WellFormed s)
    {x y : CommitId} (hx : x ∈ r.reachable) (hy : y ∈ s.reachable) (hxy : shape r x = shape s y) :
    (r.parentsOf x).map (shape r) = (s.parentsOf y).map (shape s) := by
  rw [shape_eq hr (hr.reachable_stored hx), shape_eq hs (hs.reachable_stored hy)] at hxy
  exact h _ (List.mem_append_left _ (mem_parentShapes hx)) _ (List.mem_append_right _ (mem_parentShapes hy)) hxy

/-- **Shapes tell the past.** -/
theorem shape_eq_iff_samePast {r s : Repository} (hr : WellFormed r) (hs : WellFormed s) (h : DistinctShapes r s)
    {x y : CommitId} (hx : x ∈ r.reachable) (hy : y ∈ s.reachable) : shape r x = shape s y ↔ SamePast r s x y := by
  constructor
  · intro hxy
    refine ⟨fun a b => a ∈ r.reachable ∧ b ∈ s.reachable ∧ shape r a = shape s b, ⟨hx, hy, hxy⟩, ?_⟩
    rintro a b ⟨ha, hb, hab⟩
    have hshapes : List.Forall₂ (fun p q => shape r p = shape s q) (r.parentsOf a) (s.parentsOf b) := by
      rw [← List.forall₂_map_right_iff, ← List.forall₂_map_left_iff, List.forall₂_eq_eq_eq]
      exact h.parents hr hs ha hb hab
    rw [List.forall₂_iff_zip] at hshapes ⊢
    refine ⟨hshapes.1, fun hpq => ?_⟩
    exact ⟨Repository.reachable_closed ha (List.of_mem_zip hpq).1, Repository.reachable_closed hb (List.of_mem_zip hpq).2,
      hshapes.2 hpq⟩
  · rintro ⟨R, hxy, hR⟩
    induction x using hr.acyclic.induction generalizing y with
    | _ x ih =>
      rw [shape_eq hr (hr.reachable_stored hx), shape_eq hs (hs.reachable_stored hy)]
      congr 1
      have hparents := hR x y hxy
      rw [List.forall₂_iff_zip] at hparents
      rw [← List.forall₂_eq_eq_eq, List.forall₂_map_left_iff, List.forall₂_map_right_iff, List.forall₂_iff_zip]
      refine ⟨hparents.1, fun hpq => ?_⟩
      obtain ⟨hp, hq⟩ := List.of_mem_zip hpq
      exact ih _ hp (Repository.reachable_closed hx hp) (Repository.reachable_closed hy hq) (hparents.2 hpq)

/-- a matching carries every commit to one with the same past -/
theorem matching_iff_samePast {r s : Repository} (hr : WellFormed r) (hs : WellFormed s) (h : DistinctShapes r s)
    {φ : CommitId → CommitId} :
    Matching φ r s ↔
      Set.BijOn φ {x | x ∈ r.reachable} {y | y ∈ s.reachable} ∧ ∀ x ∈ r.reachable, SamePast r s x (φ x) := by
  constructor
  · intro hφ
    exact ⟨hφ.bijOn, fun x hx => (shape_eq_iff_samePast hr hs h hx (hφ.bijOn.mapsTo hx)).1 (hφ.shape x hx).symm⟩
  · rintro ⟨hbij, hpast⟩
    exact ⟨hbij, fun x hx => ((shape_eq_iff_samePast hr hs h hx (hbij.mapsTo hx)).2 (hpast x hx)).symm⟩

/-! ## Generations -/

/-- how many generations a commit has before it; the shape tells it -/
noncomputable def generation {r : Repository} (h : r.Acyclic) (x : CommitId) : Ordinal := (h.apply x).rank

theorem generation_lt {r : Repository} (h : r.Acyclic) {p x : CommitId} (hp : p ∈ r.parentsOf x) :
    generation h p < generation h x :=
  Acc.rank_lt_of_rel (h.apply x) hp

theorem generation_le_of_shape_eq {r : Repository} (hr : WellFormed r) (h : DistinctShapes r r) {x y : CommitId}
    (hx : x ∈ r.reachable) (hy : y ∈ r.reachable) (hxy : shape r x = shape r y) :
    generation hr.acyclic x ≤ generation hr.acyclic y := by
  induction x using hr.acyclic.induction generalizing y with
  | _ x ih =>
    rw [generation, Acc.rank_eq]
    refine Ordinal.iSup_le (fun ⟨p, hp⟩ => Order.succ_le_of_lt ?_)
    have hshape : shape r p ∈ (r.parentsOf y).map (shape r) :=
      h.parents hr hr hx hy hxy ▸ List.mem_map_of_mem hp
    obtain ⟨q, hq, hqp⟩ := List.mem_map.1 hshape
    calc
      generation hr.acyclic p ≤ generation hr.acyclic q :=
        ih p hp (Repository.reachable_closed hx hp) (Repository.reachable_closed hy hq) hqp.symm
      _ < generation hr.acyclic y := generation_lt hr.acyclic hq

/-! ## From a matching to an isomorphism -/

/-- matchings that differ only on what looks like a parent of `c` agree on the parents of every other commit, since the
history goes on at `c` alone from whatever has a double -/
theorem parents_unchanged {φ φ' : CommitId → CommitId} {r s : Repository} (hr : WellFormed r)
    (h : DistinctShapes r r) (hsingle : UnambiguousParents r) (hφ : Matching φ r s) (hφ' : Matching φ' r s)
    {c d : CommitId} (hc : c ∈ r.reachable) (hd : d ∈ r.reachable) (hne : c ≠ d)
    (hframe : ∀ x, shape r x ∉ (r.parentsOf c).map (shape r) → φ' x = φ x) :
    (r.parentsOf d).map φ' = (r.parentsOf d).map φ := by
  have hsame : ∀ p ∈ r.parentsOf c, ∀ q ∈ r.reachable, shape r p = shape r q →
      p ∈ r.parentsOf d ∨ q ∈ r.parentsOf d → q = p := by
    intro p hp q hq hpq hchild
    by_contra hqp
    have hkept : p ∈ r.reachable := Repository.reachable_closed hc hp
    exact hne (hsingle p hkept q hq (Ne.symm hqp) ((shape_eq_iff_samePast hr hr h hkept hq).1 hpq) c hc d hd hp hchild)
  refine List.map_congr_left (fun q hq => ?_)
  have hkept : q ∈ r.reachable := Repository.reachable_closed hd hq
  by_cases hshape : shape r q ∈ (r.parentsOf c).map (shape r)
  · obtain ⟨p, hp, hpq⟩ := List.mem_map.1 hshape
    obtain rfl := hsame p hp q hkept hpq (Or.inr hq)
    -- nothing else looks like `q`, so the commit that was carried where `q` is carried now is `q`
    obtain ⟨a, ha, haq⟩ := hφ.bijOn.surjOn (hφ'.bijOn.mapsTo hkept)
    have haq' : shape r q = shape r a := by
      rw [← hφ.shape a ha, haq, hφ'.shape q hkept]
    rw [← haq, hsame q hp a ha haq' (Or.inl hq)]
  · exact hframe q hshape

/-- commits of later generations keep their places when the parents of earlier ones find theirs, so a matching respects
the parents of one commit after the other -/
theorem exists_matching_parents {r s : Repository} (hr : WellFormed r) (hs : WellFormed s) (h : DistinctShapes r s)
    (hnodup : DistinctParents r) (hnodup' : DistinctParents s) (hsingle : UnambiguousParents r)
    (hmatch : ∃ φ, Matching φ r s) (cs : Finset CommitId) (hcs : ∀ c ∈ cs, c ∈ r.reachable) :
    ∃ φ, Matching φ r s ∧ ∀ c ∈ cs, s.parentsOf (φ c) = (r.parentsOf c).map φ := by
  induction cs using Finset.induction_on_min_value (generation hr.acyclic) with
  | empty =>
    obtain ⟨φ, hφ⟩ := hmatch
    exact ⟨φ, hφ, fun c hc => absurd hc (Finset.notMem_empty c)⟩
  | insert c cs hfresh hmin ih =>
    have hc : c ∈ r.reachable := hcs c (Finset.mem_insert_self c cs)
    have hcs' : ∀ d ∈ cs, d ∈ r.reachable := fun d hd => hcs d (Finset.mem_insert_of_mem hd)
    obtain ⟨φ, hφ, hparents⟩ := ih hcs'
    have himage : φ c ∈ s.reachable := hφ.bijOn.mapsTo hc
    obtain ⟨φ', hφ', hmap, hframe⟩ := hφ.align (hnodup.parentsOf c) (hnodup'.parentsOf (φ c))
      (fun p hp => Repository.reachable_closed hc hp) (fun q hq => Repository.reachable_closed himage hq)
      (h.parents hr hs hc himage (hφ.shape c hc).symm)
    have hlater : ∀ d ∈ r.reachable, generation hr.acyclic c ≤ generation hr.acyclic d → φ' d = φ d := by
      intro d hd hle
      refine hframe d (fun hshape => ?_)
      obtain ⟨p, hp, hpd⟩ := List.mem_map.1 hshape
      have hge := generation_le_of_shape_eq hr h.left hd (Repository.reachable_closed hc hp) hpd.symm
      exact absurd (hle.trans hge) (not_le_of_gt (generation_lt hr.acyclic hp))
    refine ⟨φ', hφ', fun d hd => ?_⟩
    rcases Finset.mem_insert.1 hd with rfl | hd
    · rw [hlater d hc le_rfl, hmap]
    · have hne : c ≠ d := by
        rintro rfl
        exact hfresh hd
      rw [hlater d (hcs' d hd) (hmin d hd), hparents d hd,
        parents_unchanged hr h.left hsingle hφ hφ' hc (hcs' d hd) hne hframe]

theorem HistoryIso.matching {φ : CommitId → CommitId} {r s : Repository} (h : HistoryIso φ r s) (hr : WellFormed r)
    (hs : WellFormed s) : Matching φ r s :=
  ⟨h.bijOn, fun _ hx => h.shape_eq hr hs hx⟩

/-- **What equal signatures say.** If the shapes that occur are distinct, then the signatures of two reachable histories
are equal exactly when a bijection of their commits carries every commit to one with the same past. That is the same as
an isomorphism when no two commits with the same past are continued from in two places. -/
theorem signature_eq_iff {r s : Repository} (hr : Reachable r) (hs : Reachable s) (h : DistinctShapes r s) :
    (dagSignature r (commitShapes r) = dagSignature s (commitShapes s) ↔
        ∃ φ, Set.BijOn φ {x | x ∈ r.reachable} {y | y ∈ s.reachable} ∧ ∀ x ∈ r.reachable, SamePast r s x (φ x))
      ∧ (UnambiguousParents r →
          (dagSignature r (commitShapes r) = dagSignature s (commitShapes s) ↔ ∃ φ, HistoryIso φ r s)) := by
  have hmatching := dagSignature_eq_iff_matching hr.wellFormed hs.wellFormed
  refine ⟨hmatching.trans (exists_congr (fun φ => matching_iff_samePast hr.wellFormed hs.wellFormed h)), ?_⟩
  intro hsingle
  rw [hmatching]
  constructor
  · intro hmatch
    obtain ⟨φ, hφ, hparents⟩ := exists_matching_parents hr.wellFormed hs.wellFormed h hr.distinctParents
      hs.distinctParents hsingle hmatch r.reachable.toFinset (fun c hc => List.mem_toFinset.1 hc)
    exact ⟨φ, hφ.bijOn, fun c hc => hparents c (List.mem_toFinset.2 hc)⟩
  · rintro ⟨φ, hφ⟩
    exact ⟨φ, hφ.matching hr.wellFormed hs.wellFormed⟩

/-- the smallest histories with a merge use three shapes, which are distinct -/
theorem distinctShapes_joined {a b c a' b' c' : Commit} (h : Joins a b c) (h' : Joins a' b' c') :
    DistinctShapes (joinedHistory a b c) (joinedHistory a' b' c') := by
  have hshapes : ∀ ps ∈ parentShapes (joinedHistory a b c) ++ parentShapes (joinedHistory a' b' c'), ps ∈ firstParents := by
    intro ps hps
    rcases List.mem_append.1 hps with hps | hps
    · obtain ⟨x, hx, rfl⟩ := List.mem_map.1 hps
      exact h.parentShapes_mem hx
    · obtain ⟨x, hx, rfl⟩ := List.mem_map.1 hps
      exact h'.parentShapes_mem hx
  exact fun ps hps qs hqs heq => injOn_shapeId_firstParents (hshapes ps hps) (hshapes qs hqs) heq

/-- commits with the same past have equally many parents -/
theorem unambiguousParents_joined {a b c : Commit} (h : Joins a b c) : UnambiguousParents (joinedHistory a b c) := by
  intro p hp q hq hne hpast
  obtain ⟨R, hpq, hR⟩ := hpast
  exact absurd (h.eq_of_length_parents hp hq (hR p q hpq).length_eq) hne

/-- the merge commit of the lagging branch under another message -/
def unitedCommit : Commit := mergeCommit lagging "main" olderCommit.id newerCommit.id (some "united") .empty

theorem unitedCommit_id : unitedCommit.id = "a20373a4658c783894b48cc73f441b1cab53628a5ef67411e035e6f3b7dff2c6" := by
  rw [unitedCommit, mergeCommit, Commit.make_id, olderCommit_id, newerCommit_id]
  decide +kernel

/-- a branch that is joined under one message or under another leads to isomorphic histories, as the signatures tell -/
theorem signature_eq_of_joined_histories :
    let united := joinedHistory olderCommit newerCommit unitedCommit
    Reachable rejoined ∧ Reachable united ∧ DistinctShapes rejoined united ∧ UnambiguousParents rejoined
      ∧ rejoined.parentsOf joinedCommit.id = [olderCommit.id, newerCommit.id] ∧ rejoined ≠ united
      ∧ dagSignature rejoined (commitShapes rejoined) = dagSignature united (commitShapes united)
      ∧ ∃ φ, HistoryIso φ rejoined united := by
  intro united
  have hjoins : Joins olderCommit newerCommit unitedCommit := by
    refine joins_lagging "united" rfl ?_ ?_
    · rw [unitedCommit_id, newerCommit_id]
      decide
    · rw [unitedCommit_id, olderCommit_id]
      decide
  have hrejoined : Reachable rejoined := rejoined_cleanRun.reachable
  have hunited : Reachable united := (joined_cleanRun "united" rfl hjoins).reachable
  have hdistinct : DistinctShapes rejoined united := distinctShapes_joined rejoined_joins hjoins
  have hsingle : UnambiguousParents rejoined := unambiguousParents_joined rejoined_joins
  have hdiffer : rejoined ≠ united := by
    intro h
    have hhead : some joinedCommit.id = some unitedCommit.id := congrArg Repository.headId h
    rw [joinedCommit, joinedCommit_id, unitedCommit_id] at hhead
    exact absurd hhead (by decide)
  have hiso : ∃ φ, HistoryIso φ rejoined united := ⟨_, rejoined_joins.historyIso hjoins⟩
  obtain ⟨-, htell⟩ := signature_eq_iff hrejoined hunited hdistinct
  exact ⟨hrejoined, hunited, hdistinct, hsingle, rejoined_parents, hdiffer, (htell hsingle).2 hiso, hiso⟩

end RepoTutor.Grading
