/-
The search for a merge base.

Two histories are widened in turn, one generation at a time, and the first commit seen from both sides is the base. The
invariant (`Apart`) says of each side that it has seen only ancestors of where it began, and all parents of what it has
looked at, and of both sides that they have seen nothing in common yet.

Results:
- `mergeBase_common`: a base is an ancestor of both commits;
- `mergeBase_isSome_iff`: there is a base exactly when the commits have a common ancestor;
- `mergeBase_eq_of_entersAt`: when a commit continues another and its history enters the older one's only there, the
  base is the older commit. Without that premise the search may meet an older commit first, over a side branch.
-/
import Mathlib.Tactic.ByContra
import RepoTutor.Proofs.Repo.Ancestry

namespace RepoTutor.Repo.Repository

/-! ## One generation -/

theorem scan_inl {other ps seen next : List CommitId} {p : CommitId} (h : scan other ps seen next = .inl p) :
    p ∈ ps ∧ p ∈ other := by
  induction ps generalizing seen next with
  | nil => simp [scan] at h
  | cons q ps ih =>
    simp only [scan] at h
    split at h
    · rename_i hother
      cases h
      exact ⟨List.mem_cons_self, by simpa using hother⟩
    · split at h
      · exact ⟨List.mem_cons_of_mem _ (ih h).1, (ih h).2⟩
      · exact ⟨List.mem_cons_of_mem _ (ih h).1, (ih h).2⟩

theorem scan_inr {other ps seen next : List CommitId} {side : Side} (h : scan other ps seen next = .inr side) :
    (∀ p ∈ ps, p ∉ other) ∧ (∀ x, x ∈ side.seen ↔ x ∈ seen ∨ x ∈ ps)
      ∧ ∀ x, x ∈ side.frontier ↔ x ∈ next ∨ x ∈ ps ∧ x ∉ seen := by
  induction ps generalizing seen next with
  | nil =>
    simp only [scan, Sum.inr.injEq] at h
    subst h
    simp
  | cons q ps ih =>
    simp only [scan] at h
    split at h
    · simp at h
    · rename_i hother
      have hother : q ∉ other := by simpa using hother
      split at h
      · rename_i hseen
        have hseen : q ∈ seen := by simpa using hseen
        obtain ⟨hnot, hseen', hfrontier⟩ := ih h
        refine ⟨List.forall_mem_cons.2 ⟨hother, hnot⟩, fun x => ?_, fun x => ?_⟩
        · rw [hseen', List.mem_cons]
          constructor
          · exact Or.imp_right Or.inr
          · rintro (hx | rfl | hx)
            · exact Or.inl hx
            · exact Or.inl hseen
            · exact Or.inr hx
        · rw [hfrontier, List.mem_cons]
          constructor
          · exact Or.imp_right (fun hx => ⟨Or.inr hx.1, hx.2⟩)
          · rintro (hx | ⟨rfl | hx, hnew⟩)
            · exact Or.inl hx
            · exact absurd hseen hnew
            · exact Or.inr ⟨hx, hnew⟩
      · rename_i hseen
        have hseen : q ∉ seen := by simpa using hseen
        obtain ⟨hnot, hseen', hfrontier⟩ := ih h
        refine ⟨List.forall_mem_cons.2 ⟨hother, hnot⟩, fun x => ?_, fun x => ?_⟩
        · rw [hseen', List.mem_cons, List.mem_cons, or_assoc, or_left_comm]
        · rw [hfrontier, List.mem_append, List.mem_singleton, List.mem_cons, List.mem_cons]
          constructor
          · rintro ((hx | rfl) | ⟨hx, hnew⟩)
            · exact Or.inl hx
            · exact Or.inr ⟨Or.inl rfl, hseen⟩
            · exact Or.inr ⟨Or.inr hx, fun hx' => hnew (Or.inr hx')⟩
          · rintro (hx | ⟨rfl | hx, hnew⟩)
            · exact Or.inl (Or.inl hx)
            · exact Or.inl (Or.inr rfl)
            · by_cases hxq : x = q
              · exact Or.inl (Or.inr hxq)
              · exact Or.inr ⟨hx, fun hx' => hx'.elim hxq hnew⟩

/-- a hit is a parent of the frontier that the other side has seen -/
theorem widen_inl {r : Repository} {side : Side} {other : List CommitId} {p : CommitId}
    (h : r.widen side other = .inl p) : p ∈ other ∧ ∃ x ∈ side.frontier, r.IsParent p x := by
  obtain ⟨hmem, hother⟩ := scan_inl h
  exact ⟨hother, List.mem_flatMap.1 hmem⟩

/-- without a hit, the parents of the frontier are seen, and those that were not before are the new frontier -/
theorem widen_inr {r : Repository} {side side' : Side} {other : List CommitId} (h : r.widen side other = .inr side') :
    (∀ x ∈ side.frontier, ∀ p, r.IsParent p x → p ∉ other)
      ∧ (∀ p, p ∈ side'.seen ↔ p ∈ side.seen ∨ ∃ x ∈ side.frontier, r.IsParent p x)
      ∧ ∀ p, p ∈ side'.frontier ↔ (∃ x ∈ side.frontier, r.IsParent p x) ∧ p ∉ side.seen := by
  obtain ⟨hnot, hseen, hfrontier⟩ := scan_inr h
  refine ⟨fun x hx p hp => hnot p (List.mem_flatMap.2 ⟨x, hx, hp⟩), fun p => ?_, fun p => ?_⟩
  · rw [hseen, List.mem_flatMap]
    rfl
  · rw [hfrontier, List.mem_flatMap]
    simp [IsParent]

/-! ## The invariant -/

/-- what a side has seen of the history of `start` -/
structure Spans (r : Repository) (start : CommitId) (side : Side) : Prop where
  start_seen : start ∈ side.seen
  sound : ∀ x ∈ side.seen, r.Ancestor x start
  frontier_seen : ∀ x ∈ side.frontier, x ∈ side.seen
  closed : ∀ x ∈ side.seen, x ∉ side.frontier → ∀ p, r.IsParent p x → p ∈ side.seen

theorem Spans.start (r : Repository) (start : CommitId) : r.Spans start ⟨[start], [start]⟩ := by
  refine ⟨List.mem_singleton_self _, fun x hx => ?_, fun x hx => hx, fun x hx hnot => absurd hx hnot⟩
  rw [List.mem_singleton.1 hx]
  exact Ancestor.refl r start

theorem Spans.widen {r : Repository} {start : CommitId} {side side' : Side} {other : List CommitId}
    (h : r.Spans start side) (hw : r.widen side other = .inr side') : r.Spans start side' := by
  obtain ⟨-, hseen, hfrontier⟩ := widen_inr hw
  refine ⟨(hseen start).2 (Or.inl h.start_seen), fun p hp => ?_, fun p hp => ?_, fun p hp hnot q hq => ?_⟩
  · rcases (hseen p).1 hp with hp | ⟨x, hx, hpx⟩
    · exact h.sound p hp
    · exact Ancestor.of_parent hpx (h.sound x (h.frontier_seen x hx))
  · exact (hseen p).2 (Or.inr ((hfrontier p).1 hp).1)
  · refine (hseen q).2 ?_
    -- what is off the new frontier was seen before, so its parents were seen or are parents of the old frontier
    have hold : p ∈ side.seen := by
      rcases (hseen p).1 hp with hp | hp
      · exact hp
      · by_contra hnew
        exact hnot ((hfrontier p).2 ⟨hp, hnew⟩)
    by_cases hp' : p ∈ side.frontier
    · exact Or.inr ⟨p, hp', hq⟩
    · exact Or.inl (h.closed p hold hp' q hq)

/-- a side whose frontier is empty has seen all ancestors -/
theorem Spans.complete {r : Repository} {start : CommitId} {side : Side} (h : r.Spans start side)
    (hend : side.frontier = []) {x : CommitId} (hx : r.Ancestor x start) : x ∈ side.seen :=
  hx.mem_of_closed (P := (· ∈ side.seen)) h.start_seen
    (fun y hy => h.closed y hy (by rw [hend]; exact List.not_mem_nil))

/-- both sides of a search that has met nothing yet -/
structure Apart (r : Repository) (a b : CommitId) (sideA sideB : Side) : Prop where
  first : r.Spans a sideA
  second : r.Spans b sideB
  disjoint : ∀ x ∈ sideA.seen, x ∉ sideB.seen

theorem Apart.swap {r : Repository} {a b : CommitId} {sideA sideB : Side} (h : r.Apart a b sideA sideB) :
    r.Apart b a sideB sideA :=
  ⟨h.second, h.first, fun x hx hx' => h.disjoint x hx' hx⟩

theorem Apart.widen {r : Repository} {a b : CommitId} {sideA sideB sideA' : Side} (h : r.Apart a b sideA sideB)
    (hw : r.widen sideA sideB.seen = .inr sideA') : r.Apart a b sideA' sideB := by
  refine ⟨h.first.widen hw, h.second, fun x hx => ?_⟩
  obtain ⟨hnot, hseen, -⟩ := widen_inr hw
  rcases (hseen x).1 hx with hx | ⟨y, hy, hxy⟩
  · exact h.disjoint x hx
  · exact hnot y hy x hxy

theorem Apart.hit {r : Repository} {a b c : CommitId} {sideA sideB : Side} (h : r.Apart a b sideA sideB)
    (hw : r.widen sideA sideB.seen = .inl c) : r.Ancestor c a ∧ r.Ancestor c b := by
  obtain ⟨hother, x, hx, hcx⟩ := widen_inl hw
  exact ⟨Ancestor.of_parent hcx (h.first.sound x (h.first.frontier_seen x hx)), h.second.sound c hother⟩

/-! ## The whole search -/

/-- a search that alternates between two phases: `I` holds of the sides before the first is widened, `J` before the
second is; what is found where one of them holds is as `Q` says, and otherwise `I` holds of exhausted sides -/
theorem join_phases {r : Repository} {I J : Side → Side → Prop} {Q : CommitId → Prop}
    (hfirst : ∀ a b a', I a b → r.widen a b.seen = .inr a' → J a' b)
    (hsecond : ∀ a b b', J a b → r.widen b a.seen = .inr b' → I a b')
    (hhitFirst : ∀ a b c, I a b → r.widen a b.seen = .inl c → Q c)
    (hhitSecond : ∀ a b c, J a b → r.widen b a.seen = .inl c → Q c) (a b : Side) (h : I a b) :
    (∀ c, r.join a b = some c → Q c)
      ∧ (r.join a b = none → ∃ a' b', I a' b' ∧ a'.frontier = [] ∧ b'.frontier = []) := by
  fun_induction join r a b with
  | case1 a b hend => exact ⟨fun c hc => absurd hc (by simp), fun _ => ⟨a, b, h, hend⟩⟩
  | case2 a b _ hit hw =>
    refine ⟨fun c hc => ?_, fun hnone => by cases hnone⟩
    cases hc
    exact hhitFirst a b hit h hw
  | case3 a b _ a' hw hit hw' =>
    refine ⟨fun c hc => ?_, fun hnone => by cases hnone⟩
    cases hc
    exact hhitSecond a' b hit (hfirst a b a' h hw) hw'
  | case4 a b _ a' hw b' hw' ih => exact ih (hsecond a' b b' (hfirst a b a' h hw) hw')

theorem join_common {r : Repository} {a b : CommitId} {sideA sideB : Side} (h : r.Apart a b sideA sideB) :
    (∀ c, r.join sideA sideB = some c → r.Ancestor c a ∧ r.Ancestor c b)
      ∧ (r.join sideA sideB = none → ∀ x, r.Ancestor x a → ¬ r.Ancestor x b) := by
  obtain ⟨hsome, hnone⟩ := join_phases (I := r.Apart a b) (J := r.Apart a b)
    (Q := fun c => r.Ancestor c a ∧ r.Ancestor c b)
    (fun _ _ _ h hw => h.widen hw) (fun _ _ _ h hw => (h.swap.widen hw).swap) (fun _ _ _ h hw => h.hit hw)
    (fun _ _ _ h hw => (h.swap.hit hw).symm) sideA sideB h
  refine ⟨hsome, fun hend x hxa hxb => ?_⟩
  obtain ⟨sideA', sideB', h', hendA, hendB⟩ := hnone hend
  exact h'.disjoint x (h'.first.complete hendA hxa) (h'.second.complete hendB hxb)

theorem apart_start {r : Repository} {a b : CommitId} (hne : a ≠ b) : r.Apart a b ⟨[a], [a]⟩ ⟨[b], [b]⟩ := by
  refine ⟨.start r a, .start r b, fun x hx hx' => ?_⟩
  exact hne ((List.mem_singleton.1 hx).symm.trans (List.mem_singleton.1 hx'))

/-- **A merge base is an ancestor of both commits.** -/
theorem mergeBase_common {r : Repository} {a b c : CommitId} (h : r.mergeBase a b = some c) :
    r.Ancestor c a ∧ r.Ancestor c b := by
  unfold mergeBase at h
  split at h
  · rename_i hab
    cases h
    exact ⟨Ancestor.refl r a, hab ▸ Ancestor.refl r a⟩
  · rename_i hab
    exact (join_common (apart_start hab)).1 c h

/-- **Two commits have a merge base exactly when they have a common ancestor.** -/
theorem mergeBase_isSome_iff {r : Repository} {a b : CommitId} :
    (r.mergeBase a b).isSome = true ↔ ∃ x, r.Ancestor x a ∧ r.Ancestor x b := by
  constructor
  · intro h
    obtain ⟨c, hc⟩ := Option.isSome_iff_exists.1 h
    exact ⟨c, mergeBase_common hc⟩
  · rintro ⟨x, hxa, hxb⟩
    by_contra hnone
    unfold mergeBase at hnone
    split at hnone
    · simp at hnone
    · rename_i hab
      exact (join_common (apart_start hab)).2 (by simpa using hnone) x hxa hxb

/-! ## A commit that continues another -/

/-- every edge from the newer part of the history of `b` into the history of `a` leads to `a` itself -/
def EntersAt (r : Repository) (a b : CommitId) : Prop :=
  ∀ x, r.Ancestor x b → ¬ r.Ancestor x a → ∀ p, r.IsParent p x → r.Ancestor p a → p = a

/-- the second side has only seen what is newer than `a` -/
structure Newer (r : Repository) (a b : CommitId) (sideA sideB : Side) : Prop where
  apart : r.Apart a b sideA sideB
  newer : ∀ x ∈ sideB.seen, ¬ r.Ancestor x a

theorem Newer.widen {r : Repository} {a b : CommitId} {sideA sideB sideB' : Side} (henters : r.EntersAt a b)
    (h : r.Newer a b sideA sideB) (hw : r.widen sideB sideA.seen = .inr sideB') : r.Newer a b sideA sideB' := by
  refine ⟨(h.apart.swap.widen hw).swap, fun x hx hxa => ?_⟩
  obtain ⟨hnot, hseen, -⟩ := widen_inr hw
  rcases (hseen x).1 hx with hx | ⟨y, hy, hxy⟩
  · exact h.newer x hx hxa
  · have hy' := h.apart.second.frontier_seen y hy
    have hxa' := henters y (h.apart.second.sound y hy') (h.newer y hy') x hxy hxa
    exact hnot y hy x hxy (hxa' ▸ h.apart.first.start_seen)

/-- **The base of a commit and one that continues it**, when the newer history enters the older one nowhere else. -/
theorem mergeBase_eq_of_entersAt {r : Repository} {a b : CommitId} (hacyclic : r.Acyclic) (hab : r.ProperAncestor a b)
    (henters : r.EntersAt a b) : r.mergeBase a b = some a := by
  have hne : a ≠ b := fun heq => hacyclic.irrefl b (heq ▸ hab)
  have hstart : r.Newer a b ⟨[a], [a]⟩ ⟨[b], [b]⟩ := by
    refine ⟨apart_start hne, fun x hx hxa => ?_⟩
    rw [List.mem_singleton.1 hx] at hxa
    exact hne (hacyclic.antisymm hab.ancestor hxa)
  obtain ⟨hsome, -⟩ := join_phases (I := r.Newer a b) (J := r.Newer a b) (Q := (· = a))
    (fun _ _ _ h hw => ⟨h.apart.widen hw, h.newer⟩) (fun _ _ _ h hw => h.widen henters hw)
    (fun _ _ c h hw => absurd (h.apart.hit hw).1 (h.newer c (widen_inl hw).1))
    (fun _ _ c h hw => by
      obtain ⟨-, x, hx, hcx⟩ := widen_inl hw
      have hx := h.apart.second.frontier_seen x hx
      exact henters x (h.apart.second.sound x hx) (h.newer x hx) c hcx (h.apart.swap.hit hw).2) _ _ hstart
  obtain ⟨c, hc⟩ := Option.isSome_iff_exists.1 (mergeBase_isSome_iff.2 ⟨a, Ancestor.refl r a, hab.ancestor⟩)
  rw [hc]
  rw [mergeBase, if_neg hne] at hc
  rw [hsome c hc]

end RepoTutor.Repo.Repository
