/-
Full marks.

When all rules pass, the repository is correct and the score is one (`validate_of_passed`), exactly so however many
rules there are (`ofRatio_self`). A well-formed repository passes the standard rules against itself, because each of its
branches and a detached HEAD have a shape (`defaultRules_passed`).
-/
import RepoTutor.Grading.Verdict
import RepoTutor.Proofs.Grading.Shapes

namespace RepoTutor.Grading

open Repo

/-! ## The score -/

/-- a quotient without rest is not rounded -/
theorem roundQuotient_mul {n : Nat} (hn : 0 < n) (m : Nat) : Binary64.roundQuotient (n * m) n = m := by
  have hquotient : n * m / n = m := Nat.mul_div_cancel_left m hn
  have hrest : n * m % n = 0 := Nat.mul_mod_right n m
  simp only [Binary64.roundQuotient, hquotient, hrest]
  have hround : (decide (n < 2 * 0) || (2 * 0 == n && m % 2 == 1)) = false := by
    have hne : (0 == n) = false := beq_eq_false_iff_ne.2 (Nat.ne_of_lt hn)
    simp [hne]
  rw [hround]
  rfl

/-- all of any number is one -/
theorem ofRatio_self {n : Nat} (hn : 0 < n) : Binary64.ofRatio false n n = Binary64.ofNat 1 := by
  have hone : ∀ n, 0 < n → Binary64.ofRatio false n n = ⟨UInt64.ofNat (1023 * Nat.pow 2 52)⟩ := by
    intro n hn
    have hguess : (Nat.log2 n : Int) - (Nat.log2 n : Int) - 52 = -52 := by omega
    have hround : Binary64.roundScaled n 52 n = Nat.pow 2 52 := by
      have hden : n * Nat.pow 2 (-(52 : Int)).toNat = n := Nat.mul_one n
      rw [Binary64.roundScaled, hden]
      exact roundQuotient_mul hn _
    have hsmall : ¬n * Nat.pow 2 (-(-52 : Int)).toNat < n * Nat.pow 2 (52 + (-52 : Int).toNat) := Nat.lt_irrefl _
    unfold Binary64.ofRatio
    rw [if_neg (Nat.ne_of_gt hn)]
    have hexponent : max (-52 : Int) (-1074) = -52 := by decide
    simp only [hguess, if_neg hsmall, hexponent]
    rw [Int.neg_neg, hround]
    rfl
  rw [hone n hn, Binary64.ofNat, hone 1 Nat.one_pos]

/-! ## The goal against itself -/

section Goal

variable {r : Repository}

/-- in a well-formed goal every branch has a shape -/
theorem branchShape_self (h : WellFormed r) (history : List String) {name : BranchName} {id : CommitId}
    (hid : r.branches.get? name = some id) :
    (Context.of r r history).goalBranchShape name = some (shape r id)
      ∧ (Context.of r r history).currentBranchShape name = some (shape r id) := by
  have hshape := get?_shape h (h.branch name id hid)
  simp [Context.goalBranchShape, Context.currentBranchShape, Context.of, hid, hshape]

theorem mismatchedBranches_self (h : WellFormed r) (history : List String) :
    (Context.of r r history).mismatchedBranches = [] := by
  refine List.filter_eq_nil_iff.2 (fun name hname => ?_)
  obtain ⟨id, hid⟩ := Table.mem_keys.1 hname
  obtain ⟨hgoal, hcurrent⟩ := branchShape_self h history hid
  simp [hgoal, hcurrent]

theorem headMatches_self (h : WellFormed r) (history : List String) : (Context.of r r history).headMatches = true := by
  simp only [Context.headMatches, Context.of]
  cases hhead : r.head with
  | attached name => simp
  | detached id =>
    have hshape := get?_shape h (h.head id hhead)
    simp [hshape]

/-- the standard rules pass on the goal itself -/
theorem defaultRules_passed (h : WellFormed r) (history : List String) :
    ∀ rule ∈ defaultRules, ((Context.of r r history).grade rule).passed = true := by
  intro rule hrule
  simp only [defaultRules, List.mem_cons, List.not_mem_nil, or_false] at hrule
  rcases hrule with rfl | rfl | rfl
  · simp [Context.grade, Context.check, Context.of, Rule.need]
  · simp [Context.grade, Context.check, Rule.need, Context.checkBranchesMatchGoal, mismatchedBranches_self h]
  · exact headMatches_self h history

end Goal

/-! ## Verdicts -/

/-- **A verdict on passed rules is full marks.** -/
theorem validate_of_passed {current goal : Repository} {rules : List Rule} {history : List String}
    (h : ∀ rule ∈ rules, ((Context.of current goal history).grade rule).passed = true) :
    let v := validate current goal rules history
    v.results.length = rules.length ∧ (∀ result ∈ v.results, result.passed = true) ∧ v.isCorrect = true
      ∧ v.score = Binary64.ofNat 1 := by
  intro v
  have hall : ∀ result ∈ v.results, result.passed = true := by
    intro result hresult
    obtain ⟨rule, hrule, rfl⟩ := List.mem_map.1 hresult
    exact h rule hrule
  refine ⟨List.length_map _, hall, ?_, ?_⟩
  · refine List.all_eq_true.2 (fun result hresult => ?_)
    rw [hall result hresult, Bool.or_true]
  · have hpassed : v.results.filter (·.passed) = v.results := List.filter_eq_self.2 hall
    show scoreOf v.results = _
    unfold scoreOf
    split
    · rfl
    · rename_i hne
      rw [hpassed]
      exact ofRatio_self (List.length_pos_iff.2 (by simpa using hne))

end RepoTutor.Grading
