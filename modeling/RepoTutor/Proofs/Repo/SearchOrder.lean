/-
Which of the commits that are met is taken as the base.

As long as nothing is met, each side widens as it would alone (`sideAfter`), so what is looked at in a turn (`looked`), and
in which order, does not depend on the other side. In the first round in which the sides have reached something in common
(`MetWithin`), the first side takes the first commit that it looks at and that the second side had reached before; if there
is none, the second side takes the first one that it looks at and that the first side has reached by now (`taken`).

So the same round ends the search in either order (`mergeBase_eq_taken`), but the sides look at its commits in orders of
their own, and the one that begins cannot take what only it had reached before. `taken_ne_of_crossed` is a case in which
the two orders never agree; in histories without merges they always do (`mergeBase_comm_of_linear`).
-/
import Mathlib.Data.Nat.Find
import RepoTutor.Proofs.Repo.BaseSearch

namespace RepoTutor.Repo.Repository

/-! ## One side alone -/

/-- what is seen and new after looking at some parents, if none of them is a hit -/
def collect : List CommitId → List CommitId → List CommitId → Side
  | [], seen, next => ⟨next, seen⟩
  | p :: ps, seen, next => if seen.contains p then collect ps seen next else collect ps (p :: seen) (next ++ [p])

theorem scan_of_find?_some {other ps : List CommitId} {p : CommitId} (h : ps.find? other.contains = some p)
    (seen next : List CommitId) : scan other ps seen next = .inl p := by
  induction ps generalizing seen next with
  | nil => simp at h
  | cons q ps ih =>
    rw [List.find?_cons] at h
    rw [scan]
    split at h
    · rename_i hq
      cases h
      rw [if_pos hq]
    · rename_i hq
      rw [if_neg (Bool.eq_false_iff.1 hq), ih h, ih h, ite_self]

theorem scan_of_find?_none {other ps : List CommitId} (h : ps.find? other.contains = none)
    (seen next : List CommitId) : scan other ps seen next = .inr (collect ps seen next) := by
  induction ps generalizing seen next with
  | nil => rfl
  | cons q ps ih =>
    rw [List.find?_cons] at h
    split at h
    · cases h
    · rename_i hq
      rw [scan, if_neg (Bool.eq_false_iff.1 hq), ih h, ih h, collect]
      split <;> rfl

/-- the side of a commit after some turns without a hit -/
def sideAfter (r : Repository) (start : CommitId) : Nat → Side
  | 0 => ⟨[start], [start]⟩
  | n + 1 => collect ((r.sideAfter start n).frontier.flatMap r.parentsOf) (r.sideAfter start n).seen []

/-- what the side looks at in its next turn, in order -/
def looked (r : Repository) (start : CommitId) (n : Nat) : List CommitId :=
  (r.sideAfter start n).frontier.flatMap r.parentsOf

section Side

variable {r : Repository} {start : CommitId} {n : Nat} {other : List CommitId}

theorem widen_of_hit {p : CommitId} (h : (r.looked start n).find? other.contains = some p) :
    r.widen (r.sideAfter start n) other = .inl p :=
  scan_of_find?_some h _ _

theorem widen_of_no_hit (h : (r.looked start n).find? other.contains = none) :
    r.widen (r.sideAfter start n) other = .inr (r.sideAfter start (n + 1)) :=
  scan_of_find?_none h _ _

theorem widen_alone (r : Repository) (start : CommitId) (n : Nat) :
    r.widen (r.sideAfter start n) [] = .inr (r.sideAfter start (n + 1)) :=
  widen_of_no_hit (List.find?_eq_none.2 (by simp))

theorem reaches_sideAfter (r : Repository) (start : CommitId) (n : Nat) : r.Reaches start n (r.sideAfter start n) := by
  induction n with
  | zero => exact .start r start
  | succ n ih => exact ih.widen (r.widen_alone start n)

theorem contains_sideAfter {x : CommitId} : (r.sideAfter start n).seen.contains x = true ↔ r.Within start n x := by
  rw [List.contains_iff_mem, (r.reaches_sideAfter start n).seen_iff]

/-- one more turn reaches what is looked at -/
theorem within_succ_iff {x : CommitId} : r.Within start (n + 1) x ↔ r.Within start n x ∨ x ∈ r.looked start n := by
  rw [← (r.reaches_sideAfter start (n + 1)).seen_iff, ← (r.reaches_sideAfter start n).seen_iff,
    (widen_inr (r.widen_alone start n)).2.1, looked, List.mem_flatMap]
  rfl

end Side

/-! ## One round -/

/-- both sides have reached a commit after some rounds -/
def MetWithin (r : Repository) (a b : CommitId) (n : Nat) (x : CommitId) : Prop := r.Within a n x ∧ r.Within b n x

/-- what is taken in the round after `n` others: the first hit of the first side, or else that of the second -/
def taken (r : Repository) (a b : CommitId) (n : Nat) : Option CommitId :=
  ((r.looked a n).find? (r.sideAfter b n).seen.contains).or
    ((r.looked b n).find? (r.sideAfter a (n + 1)).seen.contains)

section Rounds

variable {r : Repository} {a b c d : CommitId} {n : Nat}

theorem MetWithin.swap {x : CommitId} (h : r.MetWithin a b n x) : r.MetWithin b a n x := ⟨h.2, h.1⟩

theorem MetWithin.mono {m : Nat} {x : CommitId} (hmn : m ≤ n) (h : r.MetWithin a b m x) : r.MetWithin a b n x :=
  ⟨h.1.mono hmn, h.2.mono hmn⟩

theorem MetBy.metWithin {t : Nat} {x : CommitId} (h : r.MetBy a b t x) : r.MetWithin a b ((t + 1) / 2) x :=
  ⟨h.1, h.2.mono (by omega)⟩

theorem find?_looked {m : Nat} {x : CommitId} (h : (r.looked a n).find? (r.sideAfter b m).seen.contains = some x) :
    x ∈ r.looked a n ∧ r.Within b m x :=
  ⟨List.mem_of_find?_eq_some h, contains_sideAfter.1 (List.find?_some h)⟩

theorem find?_looked_none {m : Nat} (h : (r.looked a n).find? (r.sideAfter b m).seen.contains = none) :
    ∀ x ∈ r.looked a n, ¬r.Within b m x :=
  fun x hx hwithin => List.find?_eq_none.1 h x hx (contains_sideAfter.2 hwithin)

theorem taken_metWithin (h : r.taken a b n = some c) : r.MetWithin a b (n + 1) c := by
  rcases Option.or_eq_some_iff.1 h with h | ⟨-, h⟩
  · obtain ⟨hlooked, hreached⟩ := find?_looked h
    exact ⟨within_succ_iff.2 (Or.inr hlooked), hreached.mono (Nat.le_succ n)⟩
  · obtain ⟨hlooked, hreached⟩ := find?_looked h
    exact ⟨hreached, within_succ_iff.2 (Or.inr hlooked)⟩

/-- what both sides have reached first in a round, one of them looks at when the other has reached it -/
theorem taken_of_met (hnone : ∀ x, ¬r.MetWithin a b n x) {x : CommitId} (hmet : r.MetWithin a b (n + 1) x) :
    ∃ c, r.taken a b n = some c := by
  refine Option.ne_none_iff_exists'.1 (fun h => ?_)
  obtain ⟨hfirst, hsecond⟩ := Option.or_eq_none_iff.1 h
  rcases within_succ_iff.1 hmet.2 with hold | hlooked
  · have hnew : x ∈ r.looked a n := (within_succ_iff.1 hmet.1).resolve_left (fun hxa => hnone x ⟨hxa, hold⟩)
    exact find?_looked_none hfirst x hnew hold
  · exact find?_looked_none hsecond x hlooked hmet.1

theorem join_of_taken (h : r.taken a b n = some c) : r.join (r.sideAfter a n) (r.sideAfter b n) = some c := by
  have hmore : ¬((r.sideAfter a n).frontier = [] ∧ (r.sideAfter b n).frontier = []) := by
    rintro ⟨ha, hb⟩
    simp [taken, looked, ha, hb] at h
  rw [join, if_neg hmore]
  rcases Option.or_eq_some_iff.1 h with hfirst | ⟨hfirst, hsecond⟩
  · rw [widen_of_hit hfirst]
  · rw [widen_of_no_hit hfirst]
    simp only
    rw [widen_of_hit hsecond]

theorem join_of_not_taken (h : r.taken a b n = none) :
    r.join (r.sideAfter a n) (r.sideAfter b n) = r.join (r.sideAfter a (n + 1)) (r.sideAfter b (n + 1)) := by
  obtain ⟨hfirst, hsecond⟩ := Option.or_eq_none_iff.1 h
  rw [join]
  split
  · rename_i hend
    -- exhausted sides stay as they are
    rw [join, if_pos (by simp [sideAfter, hend.1, hend.2, collect])]
  · rw [widen_of_no_hit hfirst]
    simp only
    rw [widen_of_no_hit hsecond]

/-- **The base is what is taken in the first round in which anything is met.** -/
theorem mergeBase_eq_taken (hnone : ∀ x, ¬r.MetWithin a b n x) (hmet : ∃ x, r.MetWithin a b (n + 1) x) :
    r.mergeBase a b = r.taken a b n := by
  have hrounds : ∀ m ≤ n, r.join (r.sideAfter a 0) (r.sideAfter b 0) = r.join (r.sideAfter a m) (r.sideAfter b m) := by
    intro m hm
    induction m with
    | zero => rfl
    | succ m ih =>
      have hnothing : r.taken a b m = none := by
        refine Option.eq_none_iff_forall_ne_some.2 (fun c hc => ?_)
        exact hnone c ((taken_metWithin hc).mono hm)
      rw [ih (Nat.le_of_succ_le hm), join_of_not_taken hnothing]
  have hne : a ≠ b := by
    rintro rfl
    exact hnone a (MetWithin.mono (Nat.zero_le n) ⟨rfl, rfl⟩)
  obtain ⟨x, hx⟩ := hmet
  obtain ⟨c, hc⟩ := taken_of_met hnone hx
  rw [mergeBase, if_neg hne, hc, ← join_of_taken hc]
  exact hrounds n (Nat.le_refl n)

/-- the round in which something is met first -/
theorem exists_first_round (h : r.mergeBase a b = some c) :
    ∃ n, (∃ x, r.MetWithin a b n x) ∧ ∀ m < n, ∀ x, ¬r.MetWithin a b m x := by
  classical
  obtain ⟨t, ht, -⟩ := mergeBase_metBy h
  have hsome : ∃ n, ∃ x, r.MetWithin a b n x := ⟨_, c, ht.metWithin⟩
  refine ⟨Nat.find hsome, Nat.find_spec hsome, fun m hm x hx => ?_⟩
  exact Nat.find_min hsome hm ⟨x, hx⟩

/-- the base is met in that round -/
theorem base_metWithin (h : r.mergeBase a b = some c) {x : CommitId} (hx : r.MetWithin a b n x)
    (hbefore : ∀ m < n, ∀ y, ¬r.MetWithin a b m y) : r.MetWithin a b n c := by
  cases n with
  | zero =>
    have hab : a = b := Eq.trans (Eq.symm hx.1) hx.2
    rw [mergeBase, if_pos hab] at h
    obtain rfl := Option.some.inj h
    exact ⟨rfl, hab⟩
  | succ n =>
    rw [mergeBase_eq_taken (hbefore n (Nat.lt_succ_self n)) ⟨x, hx⟩] at h
    exact taken_metWithin h

/-! ## Both orders -/

/-- if the first side can take what the second had reached before the round, it does -/
theorem taken_reached_before (hnone : ∀ x, ¬r.MetWithin a b n x) {x : CommitId} (hx : r.Within a (n + 1) x)
    (hbefore : r.Within b n x) (hc : r.taken a b n = some c) : r.Within b n c := by
  rcases Option.or_eq_some_iff.1 hc with hfirst | ⟨hfirst, -⟩
  · exact (find?_looked hfirst).2
  · have hlooked : x ∈ r.looked a n := (within_succ_iff.1 hx).resolve_left (fun hxa => hnone x ⟨hxa, hbefore⟩)
    exact absurd hbefore (find?_looked_none hfirst x hlooked)

/-- when each side reaches in the round what the other had reached before, the two orders take different commits -/
theorem taken_ne_of_crossed (hnone : ∀ x, ¬r.MetWithin a b n x) {x y : CommitId} (hx : r.Within a (n + 1) x)
    (hx' : r.Within b n x) (hy : r.Within b (n + 1) y) (hy' : r.Within a n y) (hc : r.taken a b n = some c)
    (hd : r.taken b a n = some d) : c ≠ d := by
  rintro rfl
  exact hnone c ⟨taken_reached_before (fun z hz => hnone z hz.swap) hy hy' hd, taken_reached_before hnone hx hx' hc⟩

theorem mergeBase_isSome_comm (r : Repository) (a b : CommitId) : (r.mergeBase a b).isSome = (r.mergeBase b a).isSome := by
  rw [Bool.eq_iff_iff, mergeBase_isSome_iff, mergeBase_isSome_iff]
  simp only [and_comm]

/-- **Without merges in the two histories the order does not matter.** -/
theorem mergeBase_comm_of_linear (hacyclic : r.Acyclic)
    (hlinear : ∀ x, r.Ancestor x a ∨ r.Ancestor x b → (r.parentsOf x).length ≤ 1) :
    r.mergeBase a b = r.mergeBase b a := by
  have hsame := r.mergeBase_isSome_comm a b
  cases hc : r.mergeBase a b with
  | none =>
    rw [hc, Option.isSome_none] at hsame
    exact (Option.isNone_iff_eq_none.1 (Option.isSome_eq_false_iff.1 hsame.symm)).symm
  | some c =>
    obtain ⟨d, hd⟩ := Option.isSome_iff_exists.1 (hsame.symm.trans (by rw [hc, Option.isSome_some]))
    have hbest := bestBase_of_linear hacyclic hc hlinear
    have hbest' := bestBase_of_linear hacyclic hd (fun x hx => hlinear x hx.symm)
    -- both are ancestors of `a`, so one of them continues the other, and neither does so properly
    have hcomparable := comparable_of_linear (fun x hx => hlinear x (Or.inl hx)) hbest.common.1 hbest'.common.2
    rw [hd, Option.some.injEq]
    rcases hcomparable with hcd | hdc
    · exact hcd.eq_or_proper.resolve_right (hbest.best d ⟨hbest'.common.2, hbest'.common.1⟩)
    · exact (hdc.eq_or_proper.resolve_right (hbest'.best c ⟨hbest.common.2, hbest.common.1⟩)).symm

end Rounds

end RepoTutor.Repo.Repository
