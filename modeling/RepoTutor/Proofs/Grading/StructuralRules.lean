/-
Rules about structure see nothing but structure.

Two repositories have the same structure when an isomorphism of their histories carries branches, HEAD and a pending
merge of one to those of the other (`SameStructure`). A rule that looks only at histories, branches and HEAD
(`RuleSpec.isStructural`) then finds the same in both, against any goal. So grading by such rules comes out the same
whatever the authors, times, messages, files and pending edits are (`validate_ignores_content`).
-/
import RepoTutor.Grading.Verdict
import RepoTutor.Proofs.Grading.JoinedShapes
import RepoTutor.Proofs.Transition.MergeBases

namespace RepoTutor.Grading

open Repo Transition

/-- HEAD with its commit carried along -/
def mapHead (φ : CommitId → CommitId) : Head → Head
  | .attached name => .attached name
  | .detached id => .detached (φ id)

/-- histories, branches, HEAD and the pending merge correspond; nothing else has to -/
structure SameStructure (φ : CommitId → CommitId) (r s : Repository) : Prop extends HistoryIso φ r s where
  branches : ∀ name, s.branches.get? name = (r.branches.get? name).map φ
  head : s.head = mapHead φ r.head
  mergeHead : s.mergeHead = r.mergeHead.map φ

/-- rules that look only at histories, branches and HEAD -/
def RuleSpec.isStructural : RuleSpec → Bool
  | dagShape => true
  | commitCount _ => true
  | branchExists _ => true
  | branchAbsent _ => true
  | branchMatchesGoal _ => true
  | branchesMatchGoal => true
  | headMatchesGoal => true
  | headOnBranch _ => true
  | headDetached => true
  | mergeCommitExists => true
  | _ => false

namespace SameStructure

variable {φ : CommitId → CommitId} {r s : Repository}

/-- a root of the history has the shape of its image -/
theorem get?_shape_root (h : SameStructure φ r s) (hr : WellFormed r) (hs : WellFormed s) {id : CommitId}
    (hid : id ∈ r.roots) : (commitShapes s).get? (φ id) = (commitShapes r).get? id := by
  have hkept := Repository.reachable_of_root hid
  rw [get?_shape hs (hs.reachable_stored (h.mem hkept)), get?_shape hr (hr.reachable_stored hkept),
    h.shape_eq hr hs hkept]

theorem contains_branch (h : SameStructure φ r s) (name : BranchName) :
    s.branches.contains name = r.branches.contains name := by
  rw [Table.contains, Table.contains, h.branches, Option.isSome_map]

theorem currentBranch_eq (h : SameStructure φ r s) : s.currentBranch = r.currentBranch := by
  rw [Repository.currentBranch, Repository.currentBranch, h.head]
  cases r.head <;> rfl

theorem detachedAt_eq (h : SameStructure φ r s) : s.detachedAt = r.detachedAt.map φ := by
  rw [Repository.detachedAt, Repository.detachedAt, h.head]
  cases r.head <;> rfl

theorem branchShape_eq (h : SameStructure φ r s) (hr : WellFormed r) (hs : WellFormed s) (goal : Repository)
    (history history' : List String) (name : BranchName) :
    (Context.of s goal history').currentBranchShape name = (Context.of r goal history).currentBranchShape name := by
  simp only [Context.currentBranchShape, Context.of, h.branches]
  cases hid : r.branches.get? name with
  | none => rfl
  | some id => exact h.get?_shape_root hr hs (Repository.mem_roots.2 (Or.inl ⟨name, hid⟩))

theorem headMatches_eq (h : SameStructure φ r s) (hr : WellFormed r) (hs : WellFormed s) (goal : Repository)
    (history history' : List String) :
    (Context.of s goal history').headMatches = (Context.of r goal history).headMatches := by
  simp only [Context.headMatches, Context.of, h.head]
  cases hhead : r.head with
  | attached name => cases goal.head <;> rfl
  | detached id =>
    have hroot : id ∈ r.roots := Repository.mem_roots.2 (Or.inr (Or.inl (by rw [Repository.headId, hhead])))
    cases goal.head with
    | attached want => rfl
    | detached want =>
      show (((commitShapes goal).get? want).isSome
          && decide ((commitShapes goal).get? want = (commitShapes s).get? (φ id))) = _
      rw [h.get?_shape_root hr hs hroot]
      rfl

theorem mismatchedBranches_eq (h : SameStructure φ r s) (hr : WellFormed r) (hs : WellFormed s) (goal : Repository)
    (history history' : List String) :
    (Context.of s goal history').mismatchedBranches = (Context.of r goal history).mismatchedBranches := by
  unfold Context.mismatchedBranches
  exact List.filter_congr (fun name _ => by rw [h.branchShape_eq hr hs goal history history']; rfl)

/-- a rule about structure finds the same in both repositories -/
theorem passed_eq (h : SameStructure φ r s) (hr : WellFormed r) (hs : WellFormed s) (goal : Repository)
    (history history' : List String) {spec : RuleSpec} (hspec : spec.isStructural = true) :
    ((Context.of s goal history').check spec).passed = ((Context.of r goal history).check spec).passed := by
  cases spec with
  | dagShape =>
    show decide (dagSignature s (commitShapes s) = dagSignature goal (commitShapes goal)) = _
    rw [h.dagSignature_eq hr hs]
    rfl
  | commitCount n =>
    show decide (n.getD goal.reachable.length = s.reachable.length) = _
    rw [h.length_reachable]
    rfl
  | branchExists name => simp only [Context.check, Context.of, h.contains_branch]
  | branchAbsent name => simp only [Context.check, Context.of, h.contains_branch]
  | branchMatchesGoal name =>
    simp only [Context.check, Context.checkBranchMatchesGoal, h.branchShape_eq hr hs goal history history']
    rfl
  | branchesMatchGoal =>
    simp only [Context.check, Context.checkBranchesMatchGoal, h.mismatchedBranches_eq hr hs goal history history']
    split <;> rfl
  | headMatchesGoal => exact h.headMatches_eq hr hs goal history history'
  | headOnBranch name =>
    show decide (s.currentBranch = some name) = _
    rw [h.currentBranch_eq]
    rfl
  | headDetached => simp only [Context.check, Context.of, h.detachedAt_eq, Option.isSome_map]
  | mergeCommitExists =>
    show decide (0 < mergeCount s) = _
    rw [h.toHistoryIso.mergeCount_eq hr hs]
    rfl
  | _ => simp [RuleSpec.isStructural] at hspec

end SameStructure

/-! ## Verdicts -/

/-- a score counts the results that passed and all of them -/
theorem scoreOf_eq (results : List RuleResult) :
    scoreOf results =
      let flags := results.map (·.passed)
      if flags.isEmpty then Binary64.ofNat 1 else Binary64.ofRatio false (flags.count true) flags.length := by
  have hcount : (results.filter (·.passed)).length = (results.map (·.passed)).count true := by
    rw [← List.countP_eq_length_filter, List.count, List.countP_map]
    exact List.countP_congr (fun _ _ => by simp)
  simp only [scoreOf, hcount, List.isEmpty_map, List.length_map]

/-- **Grading by structural rules ignores content.** -/
theorem validate_ignores_content {φ : CommitId → CommitId} {r s : Repository} (hr : r.check = .ok ())
    (hs : s.check = .ok ()) (h : SameStructure φ r s) (goal : Repository) (history history' : List String)
    {rules : List Rule} (hrules : ∀ rule ∈ rules, rule.spec.isStructural = true) :
    (validate s goal rules history').results.map (·.passed) = (validate r goal rules history).results.map (·.passed)
      ∧ (validate s goal rules history').isCorrect = (validate r goal rules history).isCorrect
      ∧ (validate s goal rules history').score = (validate r goal rules history).score := by
  have hr := Repository.check_eq_ok.1 hr
  have hs := Repository.check_eq_ok.1 hs
  have hgrade : ∀ rule ∈ rules, ((Context.of s goal history').grade rule).passed
      = ((Context.of r goal history).grade rule).passed :=
    fun rule hrule => h.passed_eq hr hs goal history history' (hrules rule hrule)
  have hflags : (validate s goal rules history').results.map (·.passed)
      = (validate r goal rules history).results.map (·.passed) := by
    simp only [validate, List.map_map]
    exact List.map_congr_left hgrade
  refine ⟨hflags, ?_, ?_⟩
  · rw [Bool.eq_iff_iff]
    simp only [validate, List.all_map, List.all_eq_true]
    refine forall₂_congr (fun rule hrule => ?_)
    rw [Function.comp_apply, Function.comp_apply, hgrade rule hrule]
    rfl
  · show scoreOf (validate s goal rules history').results = scoreOf (validate r goal rules history).results
    rw [scoreOf_eq, scoreOf_eq, hflags]

/-! ## A history with a merge -/

theorem joined_sameStructure {a b c a' b' c' : Commit} (h : Joins a b c) (h' : Joins a' b' c') :
    SameStructure (Joins.carry a b a' b' c') (joinedHistory a b c) (joinedHistory a' b' c') := by
  refine ⟨h.historyIso h', fun name => ?_, rfl, rfl⟩
  rw [get?_joinedHistory_branches, get?_joinedHistory_branches]
  split_ifs
  · rw [Option.map_some, h.carry_join]
  · rw [Option.map_some, h.carry_next]
  · rfl

/-- a history like the joined one, by somebody else and at other times -/
def otherFirst : Commit := .make [] "Somebody Else" 5 "one" .empty

def otherSecond : Commit := .make [otherFirst.id] "Somebody Else" 7 "two" .empty

def otherJoin : Commit := .make [otherFirst.id, otherSecond.id] "Somebody Else" 9 "three" .empty

theorem otherFirst_id : otherFirst.id = "0e77a5405ba51f8ee72a82bf647f38d3969c7d4d606be9ab332703b99b62caab" := by
  rw [otherFirst, Commit.make_id]
  decide +kernel

theorem otherSecond_id : otherSecond.id = "e81d6a7b194fa55b72edf37c7ed87a72541987004c214e77b1a30ebd6cfc7316" := by
  rw [otherSecond, Commit.make_id, otherFirst_id]
  decide +kernel

theorem otherJoin_id : otherJoin.id = "a2c050762071af6f97646fc420a881b03bb4d8a695a5aedf5b27c238144021c0" := by
  rw [otherJoin, Commit.make_id, otherFirst_id, otherSecond_id]
  decide +kernel

theorem other_joins : Joins otherFirst otherSecond otherJoin := by
  refine joins_of_make rfl rfl rfl ?_ ?_
  · rw [otherFirst_id, otherSecond_id]
    decide
  · rw [otherFirst_id, otherSecond_id, otherJoin_id]
    decide

/-- a joined history is graded as one of another author, with other times, messages and identifiers -/
theorem validate_ignores_author_of_joined_history :
    let other := joinedHistory otherFirst otherSecond otherJoin
    let rules : List Rule := [.need .dagShape, .advise (.commitCount (some 2)), .need (.branchMatchesGoal "main"),
      .need .mergeCommitExists, .need (.headOnBranch "old")]
    rejoined.check = .ok () ∧ other.check = .ok ()
      ∧ SameStructure (Joins.carry olderCommit newerCommit otherFirst otherSecond otherJoin) rejoined other
      ∧ (validate other rejoined rules []).results.map (·.passed)
        = (validate rejoined rejoined rules ["git status"]).results.map (·.passed)
      ∧ (validate other rejoined rules []).isCorrect = (validate rejoined rejoined rules ["git status"]).isCorrect
      ∧ (validate other rejoined rules []).score = (validate rejoined rejoined rules ["git status"]).score := by
  intro other rules
  have hmine : rejoined.check = .ok () := Repository.check_eq_ok.2 rejoined_cleanRun.reachable.wellFormed
  have hother : other.check = .ok () := Repository.check_eq_ok.2 other_joins.wellFormed
  have hrules : ∀ rule ∈ rules, rule.spec.isStructural = true := by decide
  have hsame : SameStructure (Joins.carry olderCommit newerCommit otherFirst otherSecond otherJoin) rejoined other :=
    joined_sameStructure rejoined_joins other_joins
  exact ⟨hmine, hother, hsame, validate_ignores_content hmine hother hsame rejoined ["git status"] [] hrules⟩

end RepoTutor.Grading
