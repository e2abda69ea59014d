/-
How long the search for a merge base takes, and which common ancestor it meets first.

Every round of the search that goes on sees a commit that neither side had seen, so there are fewer rounds than commits
(`mergeBaseWithin_size`: cut off after as many rounds as there are commits, the search has its answer already).

After `n` generations a side has seen exactly what `n` steps to parents reach (`Within`). The sides take turns, so a commit
is met after `t` turns when the first side reaches it in half of them rounded up and the second in the other half (`MetBy`).
Results:
- `mergeBase_metBy`: no commit is met earlier than the base;
- `bestBase_of_best_earlier`: when every common ancestor that another one continues is met later than some best one, the
  base is best;
- `bestBase_of_linear`: in histories without merges it always is;
- `mergeBase_of_joined`: where a merge commit joins a commit and a child of it, in this order, the base of the child and
  the merge commit is the older of its parents, not the child, although the child is an ancestor of the merge commit.
-/
import Mathlib.Data.Finset.Card
import RepoTutor.Proofs.Repo.MergeBase
import RepoTutor.Proofs.Repo.WellFormed

namespace RepoTutor.Repo.Repository

open Relation (TransGen)

/-! ## How long it takes -/

/-- the search cut off after some rounds; no answer when it is cut off before it ends -/
def searchWithin (r : Repository) : Nat → Side → Side → Option (Option CommitId)
  | 0, a, b => if a.frontier = [] ∧ b.frontier = [] then some none else none
  | n + 1, a, b =>
    if a.frontier = [] ∧ b.frontier = [] then some none
    else
      match r.widen a b.seen with
      | .inl hit => some (some hit)
      | .inr a' =>
        match r.widen b a'.seen with
        | .inl hit => some (some hit)
        | .inr b' => searchWithin r n a' b'

/-- the merge base as far as it is found within some rounds -/
def mergeBaseWithin (r : Repository) (n : Nat) (a b : CommitId) : Option (Option CommitId) :=
  if a = b then some (some a) else r.searchWithin n ⟨[a], [a]⟩ ⟨[b], [b]⟩

/-- stored commits that neither side has seen -/
def unmet (r : Repository) (a b : Side) : Finset CommitId :=
  r.commits.keys.toFinset.filter (fun x => x ∉ a.seen ∧ x ∉ b.seen)

theorem mem_unmet {r : Repository} {a b : Side} {x : CommitId} :
    x ∈ r.unmet a b ↔ r.commits.contains x = true ∧ x ∉ a.seen ∧ x ∉ b.seen := by
  rw [unmet, Finset.mem_filter, List.mem_toFinset, Table.contains_iff_mem_keys]

section Round

variable {r : Repository} {a b a' b' : Side} (hw : WellFormed r) (ha : r.widen a b.seen = .inr a')
  (hb : r.widen b a'.seen = .inr b')

include ha hb

/-- a round forgets nothing -/
theorem unmet_subset : r.unmet a' b' ⊆ r.unmet a b := by
  intro x hx
  obtain ⟨hstored, hxa, hxb⟩ := mem_unmet.1 hx
  have hseenA := (widen_inr ha).2.1 x
  have hseenB := (widen_inr hb).2.1 x
  exact mem_unmet.2 ⟨hstored, fun h => hxa (hseenA.2 (Or.inl h)), fun h => hxb (hseenB.2 (Or.inl h))⟩

include hw

/-- a round after which there is something left to look at has seen a commit that was new to both sides -/
theorem unmet_card_lt (hmore : ¬(a'.frontier = [] ∧ b'.frontier = [])) : (r.unmet a' b').card < (r.unmet a b).card := by
  obtain ⟨hnotA, hseenA, hfrontierA⟩ := widen_inr ha
  obtain ⟨hnotB, hseenB, hfrontierB⟩ := widen_inr hb
  obtain ⟨x, hold, hnew⟩ : ∃ x, x ∈ r.unmet a b ∧ x ∉ r.unmet a' b' := by
    by_cases hend : a'.frontier = []
    · have hnext : b'.frontier ≠ [] := fun h => hmore ⟨hend, h⟩
      obtain ⟨x, hx⟩ := List.exists_mem_of_ne_nil _ hnext
      obtain ⟨⟨y, hy, hxy⟩, hunseen⟩ := (hfrontierB x).1 hx
      have hapart : x ∉ a'.seen := hnotB y hy x hxy
      refine ⟨x, mem_unmet.2 ⟨hw.parent_stored hxy, fun h => hapart ((hseenA x).2 (Or.inl h)), hunseen⟩, fun h => ?_⟩
      exact (mem_unmet.1 h).2.2 ((hseenB x).2 (Or.inr ⟨y, hy, hxy⟩))
    · obtain ⟨x, hx⟩ := List.exists_mem_of_ne_nil _ hend
      obtain ⟨⟨y, hy, hxy⟩, hunseen⟩ := (hfrontierA x).1 hx
      refine ⟨x, mem_unmet.2 ⟨hw.parent_stored hxy, hunseen, hnotA y hy x hxy⟩, fun h => ?_⟩
      exact (mem_unmet.1 h).2.1 ((hseenA x).2 (Or.inr ⟨y, hy, hxy⟩))
  exact Finset.card_lt_card (Finset.ssubset_iff_subset_ne.2 ⟨unmet_subset ha hb, fun heq => hnew (heq ▸ hold)⟩)

end Round

theorem searchWithin_exhausted (r : Repository) (n : Nat) {a b : Side} (hend : a.frontier = [] ∧ b.frontier = []) :
    r.searchWithin n a b = some none := by
  cases n <;> simp [searchWithin, hend]

/-- with more rounds than there are commits to meet, the search ends by itself -/
theorem searchWithin_eq_join {r : Repository} (hw : WellFormed r) (a b : Side) (n : Nat)
    (henough : (r.unmet a b).card < n ∨ a.frontier = [] ∧ b.frontier = []) :
    r.searchWithin n a b = some (r.join a b) := by
  fun_induction join r a b generalizing n with
  | case1 a b hend => exact r.searchWithin_exhausted n hend
  | case2 a b hmore hit ha =>
    obtain ⟨m, rfl⟩ := Nat.exists_eq_add_of_lt (henough.resolve_right hmore)
    simp [searchWithin, hmore, ha]
  | case3 a b hmore a' ha hit hb =>
    obtain ⟨m, rfl⟩ := Nat.exists_eq_add_of_lt (henough.resolve_right hmore)
    simp [searchWithin, hmore, ha, hb]
  | case4 a b hmore a' ha b' hb ih =>
    have hrounds := henough.resolve_right hmore
    obtain ⟨m, rfl⟩ : ∃ m, n = m + 1 := Nat.exists_eq_succ_of_ne_zero (by omega)
    have hrest : (r.unmet a' b').card < m ∨ a'.frontier = [] ∧ b'.frontier = [] := by
      by_cases hend : a'.frontier = [] ∧ b'.frontier = []
      · exact Or.inr hend
      · have := unmet_card_lt hw ha hb hend
        exact Or.inl (by omega)
    simp [searchWithin, hmore, ha, hb, ih m hrest]

/-- **The search ends within as many rounds as there are commits.** -/
theorem mergeBaseWithin_size {r : Repository} (hw : WellFormed r) {a : CommitId} (ha : r.commits.contains a = true)
    (b : CommitId) : r.mergeBaseWithin r.commits.size a b = some (r.mergeBase a b) := by
  unfold mergeBaseWithin mergeBase
  split
  · rfl
  · refine searchWithin_eq_join hw _ _ _ (Or.inl ?_)
    have hmissing : a ∉ r.unmet ⟨[a], [a]⟩ ⟨[b], [b]⟩ := fun h => (mem_unmet.1 h).2.1 List.mem_cons_self
    have hstored : a ∈ r.commits.keys.toFinset := List.mem_toFinset.2 (Table.contains_iff_mem_keys.1 ha)
    calc (r.unmet ⟨[a], [a]⟩ ⟨[b], [b]⟩).card
        < r.commits.keys.toFinset.card :=
          Finset.card_lt_card (Finset.ssubset_iff_subset_ne.2
            ⟨Finset.filter_subset _ _, fun heq => hmissing (heq ▸ hstored)⟩)
      _ ≤ r.commits.keys.length := List.toFinset_card_le _
      _ = r.commits.size := Table.length_keys _

/-! ## What is met first -/

/-- what `n` steps to parents reach from a commit, or fewer -/
def Within (r : Repository) (start : CommitId) : Nat → CommitId → Prop
  | 0, x => x = start
  | n + 1, x => r.Within start n x ∨ ∃ y, r.Within start n y ∧ r.IsParent x y

/-- both sides have reached a commit after `t` turns, of which the first side has the first -/
def MetBy (r : Repository) (a b : CommitId) (t : Nat) (x : CommitId) : Prop :=
  r.Within a ((t + 1) / 2) x ∧ r.Within b (t / 2) x

theorem Within.mono {r : Repository} {start x : CommitId} {m n : Nat} (hmn : m ≤ n) (h : r.Within start m x) :
    r.Within start n x := by
  induction hmn with
  | refl => exact h
  | step _ ih => exact Or.inl ih

theorem Within.ancestor {r : Repository} {start x : CommitId} {n : Nat} (h : r.Within start n x) :
    r.Ancestor x start := by
  induction n generalizing x with
  | zero =>
    rw [show x = start from h]
    exact Ancestor.refl r start
  | succ n ih =>
    rcases h with h | ⟨y, hy, hxy⟩
    · exact ih h
    · exact Ancestor.of_parent hxy (ih hy)

theorem MetBy.mono {r : Repository} {a b x : CommitId} {s t : Nat} (hst : s ≤ t) (h : r.MetBy a b s x) :
    r.MetBy a b t x :=
  ⟨h.1.mono (by omega), h.2.mono (by omega)⟩

/-- a side that has seen what `n` steps reach -/
structure Reaches (r : Repository) (start : CommitId) (n : Nat) (side : Side) : Prop where
  spans : r.Spans start side
  seen_iff : ∀ x, x ∈ side.seen ↔ r.Within start n x

theorem Reaches.start (r : Repository) (start : CommitId) : r.Reaches start 0 ⟨[start], [start]⟩ :=
  ⟨.start r start, fun _ => List.mem_singleton⟩

theorem Reaches.widen {r : Repository} {start : CommitId} {n : Nat} {side side' : Side} {other : List CommitId}
    (h : r.Reaches start n side) (hw : r.widen side other = .inr side') : r.Reaches start (n + 1) side' := by
  refine ⟨h.spans.widen hw, fun x => ?_⟩
  rw [(widen_inr hw).2.1 x, h.seen_iff x]
  constructor
  · rintro (hx | ⟨y, hy, hxy⟩)
    · exact Or.inl hx
    · exact Or.inr ⟨y, (h.seen_iff y).1 (h.spans.frontier_seen y hy), hxy⟩
  · rintro (hx | ⟨y, hy, hxy⟩)
    · exact Or.inl hx
    · -- the parents of what is off the frontier have been seen before
      by_cases hfrontier : y ∈ side.frontier
      · exact Or.inr ⟨y, hfrontier, hxy⟩
      · exact Or.inl ((h.seen_iff x).1 (h.spans.closed y ((h.seen_iff y).2 hy) hfrontier x hxy))

theorem Reaches.hit {r : Repository} {start c : CommitId} {n : Nat} {side : Side} {other : List CommitId}
    (h : r.Reaches start n side) (hw : r.widen side other = .inl c) : c ∈ other ∧ r.Within start (n + 1) c := by
  obtain ⟨hother, x, hx, hcx⟩ := widen_inl hw
  exact ⟨hother, Or.inr ⟨x, (h.seen_iff x).1 (h.spans.frontier_seen x hx), hcx⟩⟩

/-- the sides after some turns, if nothing has been met yet -/
structure Searched (r : Repository) (a b : CommitId) (m n : Nat) (sideA sideB : Side) : Prop where
  first : r.Reaches a m sideA
  second : r.Reaches b n sideB
  apart : ∀ x, r.Within a m x → ¬r.Within b n x

theorem Searched.widenFirst {r : Repository} {a b : CommitId} {m n : Nat} {sideA sideA' sideB : Side}
    (h : r.Searched a b m n sideA sideB) (hw : r.widen sideA sideB.seen = .inr sideA') :
    r.Searched a b (m + 1) n sideA' sideB := by
  refine ⟨h.first.widen hw, h.second, fun x hxa hxb => ?_⟩
  rcases hxa with hxa | ⟨y, hy, hxy⟩
  · exact h.apart x hxa hxb
  · have hseen := ((h.first.widen hw).seen_iff x).2 (Or.inr ⟨y, hy, hxy⟩)
    rcases ((widen_inr hw).2.1 x).1 hseen with hold | ⟨z, hz, hxz⟩
    · exact h.apart x ((h.first.seen_iff x).1 hold) hxb
    · exact (widen_inr hw).1 z hz x hxz ((h.second.seen_iff x).2 hxb)

theorem Searched.swap {r : Repository} {a b : CommitId} {m n : Nat} {sideA sideB : Side}
    (h : r.Searched a b m n sideA sideB) : r.Searched b a n m sideB sideA :=
  ⟨h.second, h.first, fun x hxb hxa => h.apart x hxa hxb⟩

/-- **No commit is met earlier than the base.** -/
theorem mergeBase_metBy {r : Repository} {a b c : CommitId} (h : r.mergeBase a b = some c) :
    ∃ t, r.MetBy a b t c ∧ ∀ s < t, ∀ x, ¬r.MetBy a b s x := by
  unfold mergeBase at h
  split at h
  · rename_i hab
    cases h
    exact ⟨0, ⟨rfl, hab⟩, fun s hs => absurd hs (Nat.not_lt_zero s)⟩
  · rename_i hab
    -- before a turn of the first side both have had as many; before one of the second side, the first is one ahead
    have hstart : ∃ k, r.Searched a b k k ⟨[a], [a]⟩ ⟨[b], [b]⟩ :=
      ⟨0, .start r a, .start r b, fun x hxa hxb => hab ((show x = a from hxa).symm.trans hxb)⟩
    refine (join_phases (I := fun sideA sideB => ∃ k, r.Searched a b k k sideA sideB)
      (J := fun sideA sideB => ∃ k, r.Searched a b (k + 1) k sideA sideB)
      (Q := fun c => ∃ t, r.MetBy a b t c ∧ ∀ s < t, ∀ x, ¬r.MetBy a b s x) ?_ ?_ ?_ ?_ _ _ hstart).1 c h
    · rintro sideA sideB sideA' ⟨k, hk⟩ hw
      exact ⟨k, hk.widenFirst hw⟩
    · rintro sideA sideB sideB' ⟨k, hk⟩ hw
      exact ⟨k + 1, (hk.swap.widenFirst hw).swap⟩
    · rintro sideA sideB c ⟨k, hk⟩ hw
      obtain ⟨hseen, hreached⟩ := hk.first.hit hw
      refine ⟨2 * k + 1, ⟨hreached.mono (by omega), ((hk.second.seen_iff c).1 hseen).mono (by omega)⟩, ?_⟩
      intro s hs x hx
      exact hk.apart x (hx.1.mono (by omega)) (hx.2.mono (by omega))
    · rintro sideA sideB c ⟨k, hk⟩ hw
      obtain ⟨hseen, hreached⟩ := hk.second.hit hw
      refine ⟨2 * k + 2, ⟨((hk.first.seen_iff c).1 hseen).mono (by omega), hreached.mono (by omega)⟩, ?_⟩
      intro s hs x hx
      exact hk.apart x (hx.1.mono (by omega)) (hx.2.mono (by omega))

/-! ## When the base is best -/

/-- an ancestor of both -/
def CommonAncestor (r : Repository) (a b x : CommitId) : Prop := r.Ancestor x a ∧ r.Ancestor x b

/-- a common ancestor that no other common ancestor continues -/
structure BestBase (r : Repository) (a b c : CommitId) : Prop where
  common : r.CommonAncestor a b c
  best : ∀ x, r.CommonAncestor a b x → ¬r.ProperAncestor c x

/-- whatever has been met, the base has been met -/
theorem MetBy.base {r : Repository} {a b c x : CommitId} {t : Nat} (h : r.MetBy a b t x)
    (hbase : r.mergeBase a b = some c) : r.MetBy a b t c := by
  obtain ⟨first, hfirst, hnone⟩ := mergeBase_metBy hbase
  refine hfirst.mono (Nat.not_lt.1 (fun hlt => ?_))
  exact hnone t hlt x h

/-- what is not best does not come before what is best, so the base is best -/
theorem bestBase_of_best_earlier {r : Repository} {a b c : CommitId} (h : r.mergeBase a b = some c)
    (hearlier : ∀ x, r.CommonAncestor a b x → ¬r.BestBase a b x →
      ∃ m t, r.BestBase a b m ∧ r.MetBy a b t m ∧ ¬r.MetBy a b t x) : r.BestBase a b c := by
  by_contra hbad
  obtain ⟨m, t, -, hmet, hunmet⟩ := hearlier c (mergeBase_common h) hbad
  exact hunmet (hmet.base h)

/-- the base of a commit and one that continues it is best only if it is the older commit -/
theorem bestBase_iff_of_ancestor {r : Repository} (hacyclic : r.Acyclic) {a b c : CommitId} (hab : r.Ancestor a b)
    (hc : r.CommonAncestor a b c) : r.BestBase a b c ↔ c = a := by
  constructor
  · intro h
    rcases hc.1.eq_or_proper with heq | hproper
    · exact heq
    · exact absurd hproper (h.best a ⟨Ancestor.refl r a, hab⟩)
  · rintro rfl
    refine ⟨hc, fun x hx hproper => ?_⟩
    exact hacyclic.irrefl c (TransGen.trans_left hproper hx.1)

section Linear

variable {r : Repository} {d : CommitId} (hlinear : ∀ x, r.Ancestor x d → (r.parentsOf x).length ≤ 1)

include hlinear

/-- where each commit has one parent at most, what leads to a commit passes through that parent -/
theorem ancestor_of_linear {p v w : CommitId} (hw : r.Ancestor w d) (hp : r.IsParent p w) (hv : r.ProperAncestor v w) :
    r.Ancestor v p := by
  obtain ⟨q, hvq, hq⟩ := TransGen.tail'_iff.1 hv
  have hsame : p = q := by
    have hone := hlinear w hw
    unfold IsParent at hp hq
    match hparents : r.parentsOf w with
    | [] => simp [hparents] at hp
    | [only] =>
      rw [hparents, List.mem_singleton] at hp hq
      exact hp.trans hq.symm
    | _ :: _ :: _ => simp [hparents] at hone
  exact hsame ▸ hvq

/-- ancestors of one commit follow each other -/
theorem comparable_of_linear {u v : CommitId} (hu : r.Ancestor u d) (hv : r.Ancestor v d) :
    r.Ancestor u v ∨ r.Ancestor v u := by
  induction hu using Relation.ReflTransGen.head_induction_on with
  | refl => exact Or.inr hv
  | @head u w huw hw ih =>
    rcases ih with hwv | hvw
    · exact Or.inl (Ancestor.of_parent huw hwv)
    · rcases hvw.eq_or_proper with rfl | hproper
      · exact Or.inl (Ancestor.of_parent huw (Ancestor.refl r v))
      · exact Or.inr (ancestor_of_linear hlinear hw huw hproper)

/-- a commit is reached before those that it continues -/
theorem Within.earlier_of_linear (hacyclic : r.Acyclic) {x y : CommitId} {n : Nat} (hy : r.Ancestor y d)
    (hxy : r.ProperAncestor x y) (hx : r.Within d n x) : ∃ m < n, r.Within d m y := by
  induction n generalizing x with
  | zero =>
    rw [show x = d from hx] at hxy
    exact absurd (TransGen.trans_left hxy hy) (hacyclic.irrefl d)
  | succ n ih =>
    rcases hx with hx | ⟨z, hz, hxz⟩
    · obtain ⟨m, hm, hmy⟩ := ih hxy hx
      exact ⟨m, Nat.lt_succ_of_lt hm, hmy⟩
    · rcases comparable_of_linear hlinear hz.ancestor hy with hzy | hyz
      · rcases hzy.eq_or_proper with rfl | hproper
        · exact ⟨n, Nat.lt_succ_self n, hz⟩
        · obtain ⟨m, hm, hmy⟩ := ih hproper hz
          exact ⟨m, Nat.lt_succ_of_lt hm, hmy⟩
      · rcases hyz.eq_or_proper with rfl | hproper
        · exact ⟨n, Nat.lt_succ_self n, hz⟩
        · have hyx := ancestor_of_linear hlinear hz.ancestor hxz hproper
          exact absurd (TransGen.trans_left hxy hyx) (hacyclic.irrefl x)

end Linear

/-- **Without merges in the two histories the base is best.** -/
theorem bestBase_of_linear {r : Repository} (hacyclic : r.Acyclic) {a b c : CommitId} (h : r.mergeBase a b = some c)
    (hlinear : ∀ x, r.Ancestor x a ∨ r.Ancestor x b → (r.parentsOf x).length ≤ 1) : r.BestBase a b c := by
  refine ⟨mergeBase_common h, fun y hy hcy => ?_⟩
  obtain ⟨t, hmet, hnone⟩ := mergeBase_metBy h
  obtain ⟨m, hm, hmy⟩ := hmet.1.earlier_of_linear (fun x hx => hlinear x (Or.inl hx)) hacyclic hy.1 hcy
  obtain ⟨n, hn, hny⟩ := hmet.2.earlier_of_linear (fun x hx => hlinear x (Or.inr hx)) hacyclic hy.2 hcy
  -- both sides have reached `y` one turn before they meet at the base
  exact hnone (t - 1) (by omega) y ⟨hmy.mono (by omega), hny.mono (by omega)⟩

/-- a merge commit whose first parent is a parent of its second: the search meets the older parent -/
theorem mergeBase_of_joined {r : Repository} (hacyclic : r.Acyclic) {joined older newer : CommitId}
    (hjoined : r.parentsOf joined = [older, newer]) (hparent : r.IsParent older newer) :
    r.mergeBase newer joined = some older := by
  have hnewer : r.IsParent newer joined := by
    rw [IsParent, hjoined]
    simp
  have hne : newer ≠ joined := fun heq => hacyclic.irrefl joined (.single (heq ▸ hnewer))
  rw [mergeBase, if_neg hne, join, if_neg (by simp)]
  split
  · rename_i hit hwiden
    -- a hit in the first turn would be the merge commit as a parent of its own parent
    obtain ⟨hother, x, hx, hparent'⟩ := widen_inl hwiden
    rw [List.mem_singleton.1 hother, List.mem_singleton.1 hx] at hparent'
    exact absurd (TransGen.tail (.single hparent') hnewer) (hacyclic.irrefl joined)
  · rename_i sideA hwiden
    have hseen : older ∈ sideA.seen := ((widen_inr hwiden).2.1 older).2 (Or.inr ⟨newer, List.mem_cons_self, hparent⟩)
    have hsecond : r.widen ⟨[joined], [joined]⟩ sideA.seen = .inl older := by
      simp [widen, scan, hjoined, hseen]
    split
    · rename_i hit hwiden'
      rw [hsecond] at hwiden'
      exact congrArg some (Sum.inl.inj hwiden').symm
    · rename_i sideB hwiden'
      rw [hsecond] at hwiden'
      cases hwiden'

end RepoTutor.Repo.Repository
