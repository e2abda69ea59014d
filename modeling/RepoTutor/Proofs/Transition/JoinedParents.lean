/-
The two sides of a merge stay apart.

A merge joins HEAD with a commit that is not part of its history. When it is left for the next commit, that has to be so
until then: `JoinsApart` says of the pending merge what it says of the commits with two parents, for any relation that
holds between a commit and another one outside its history. No operation that keeps a merge pending moves HEAD, and an
amended commit takes over the parents, so operations keep it (`step_joinsApart`). The weakest such relation is to be
different: no commit has one parent twice (`Reachable.distinctParents`).
-/
import RepoTutor.Proofs.Transition.Application
import RepoTutor.Proofs.Transition.Pointers

namespace RepoTutor.Transition

open Command Repo

/-- the parents of a merge stand in a relation, and so do those of the commit that a pending merge will make -/
structure JoinsApart (Apart : CommitId → CommitId → Prop) (r : Repository) : Prop where
  commit : ∀ id c, r.commits.get? id = some c → ∀ p q, c.parents = [p, q] → Apart p q
  merging : ∀ m, r.mergeHead = some m → ∃ h, r.headId = some h ∧ Apart h m

namespace JoinsApart

variable {Apart Apart' : CommitId → CommitId → Prop} {r r' : Repository}

theorem new (branch : BranchName) : JoinsApart Apart (.new branch) :=
  ⟨fun id c hc => by simp [Repository.new] at hc, fun m hm => by simp [Repository.new] at hm⟩

/-- on the commits that are stored, the relation may become a weaker one -/
theorem imp (h : JoinsApart Apart r) (hw : WellFormed r)
    (himp : ∀ p q, r.commits.contains p = true → Apart p q → Apart' p q) : JoinsApart Apart' r := by
  refine ⟨fun id c hc p q hparents => ?_, fun m hm => ?_⟩
  · have hp : p ∈ c.parents := by rw [hparents]; exact List.mem_cons_self
    exact himp p q ((hw.commit id c hc).parents p hp) (h.commit id c hc p q hparents)
  · obtain ⟨head, hhead, hapart⟩ := h.merging m hm
    exact ⟨head, hhead, himp head m (hw.head_stored hhead) hapart⟩

theorem sameHead (h : JoinsApart Apart r) (hcommits : r'.commits = r.commits) (hmerge : r'.mergeHead = r.mergeHead)
    (hhead : ∀ id, r.headId = some id → r'.headId = some id) : JoinsApart Apart r' := by
  refine ⟨fun id c hc => h.commit id c (hcommits ▸ hc), fun m hm => ?_⟩
  obtain ⟨id, hid, hapart⟩ := h.merging m (hmerge ▸ hm)
  exact ⟨id, hhead id hid, hapart⟩

theorem editsOnly (h : JoinsApart Apart r) (he : EditsOnly r r') : JoinsApart Apart r' :=
  h.sameHead he.commits he.mergeHead (fun id hid => by rw [he.headId]; exact hid)

/-- without a pending merge HEAD may be anywhere -/
theorem noMerge (h : JoinsApart Apart r) (hcommits : r'.commits = r.commits) (hmerge : r'.mergeHead = none) :
    JoinsApart Apart r' :=
  ⟨fun id c hc => h.commit id c (hcommits ▸ hc), fun m hm => by rw [hmerge] at hm; cases hm⟩

theorem addCommit (h : JoinsApart Apart r) {c : Commit} (hc : ∀ p q, c.parents = [p, q] → Apart p q)
    (hcommits : r'.commits = r.commits.insert c.id c) (hmerge : r'.mergeHead = none) : JoinsApart Apart r' := by
  refine ⟨fun id d hd => ?_, fun m hm => by rw [hmerge] at hm; cases hm⟩
  rw [hcommits, Table.get?_insert] at hd
  split at hd
  · cases hd
    exact hc
  · exact h.commit id d hd

end JoinsApart

/-! ## Operations -/

section Operations

variable {Apart : CommitId → CommitId → Prop} {r : Repository} {o : Outcome}

theorem init_joinsApart (hw : WellFormed r) (h : JoinsApart Apart r) (initialBranch : Option BranchName) :
    JoinsApart Apart (init r initialBranch).state := by
  rcases init_effect r initialBranch with hstate | ⟨name, -, hcommits, hbranches, hstate⟩
  · rw [hstate]
    exact h
  · rw [hstate]
    exact h.sameHead rfl rfl (fun id hid => by rw [hw.unborn_of_noCommits hcommits] at hid; cases hid)

theorem commit_joinsApart (h : JoinsApart Apart r) {args : CommitArgs} (ho : commit r args = .ok o) :
    JoinsApart Apart o.state := by
  obtain ⟨d, hd, -, hstate⟩ := commit_effect ho
  have hstaged : JoinsApart Apart (stagedFor r args) := h.editsOnly (editsOnly_stagedFor r args)
  have hparents : ∀ p q, d.parents = [p, q] → Apart p q := by
    split at hd
    · obtain ⟨c, hc, rfl⟩ := amendDraft_effect hd
      obtain ⟨id, -, hc⟩ := Option.bind_eq_some_iff.1 hc
      exact hstaged.commit id c hc
    · obtain ⟨-, message, -, rfl⟩ := freshDraft_effect hd
      cases hmerge : (stagedFor r args).mergeHead with
      | none => cases (stagedFor r args).headId <;> simp
      | some m =>
        obtain ⟨id, hid, hapart⟩ := hstaged.merging m hmerge
        rintro p q hpq
        simp only [hid, Option.toList_some, List.singleton_append, List.cons.injEq, and_true] at hpq
        exact hpq.1 ▸ hpq.2 ▸ hapart
  rw [hstate]
  exact hstaged.addCommit (c := d.commitIn (stagedFor r args)) hparents (committed_commits _ d) rfl

theorem branch_joinsApart (h : JoinsApart Apart r) {op : BranchOp} (ho : branch r op = .ok o) :
    JoinsApart Apart o.state :=
  h.sameHead (branch_repoints ho).commits (branch_repoints ho).mergeHead (fun _ hid => branch_headId ho hid)

theorem checkout_joinsApart (h : JoinsApart Apart r) {target : String} {mode : CheckoutMode}
    (ho : checkout r target mode = .ok o) : JoinsApart Apart o.state :=
  h.noMerge (checkout_repoints ho).commits ((checkout_repoints ho).mergeHead.trans (checkout_effect ho).1)

theorem trueMerge_joinsApart (h : JoinsApart Apart r) {source : String} {ours theirs : CommitId} {commit : Bool}
    {message : Option String} (hours : r.headId = some ours) (hapart : Apart ours theirs) (hmerge : r.mergeHead = none)
    (ho : trueMerge r source ours theirs commit message = .ok o) : JoinsApart Apart o.state := by
  obtain ⟨base, merged, -, -, -, ⟨-, hstate⟩ | ⟨-, hstate⟩⟩ := trueMerge_effect ho
  · rw [hstate]
    refine h.addCommit (c := mergeCommit r source ours theirs message merged) (fun p q hparents => ?_)
      (addCommit_commits r _) ((Repoints.mergeHead (.moveHead _ _)).trans hmerge)
    cases hparents
    exact hapart
  · have hedits := editsOnly_stagePaths merged (changedPaths (r.treeOf (some ours)) merged) r
    rw [hstate]
    refine ⟨fun id c hc => h.commit id c (hedits.commits ▸ hc), fun m hm => ⟨ours, ?_, ?_⟩⟩
    · exact hedits.headId.trans hours
    · cases hm
      exact hapart

theorem merge_joinsApart (hw : WellFormed r) (h : JoinsApart Apart r)
    (houtside : ∀ p q, r.commits.contains p = true → r.isAncestor q p = false → Apart p q) {source : String}
    {ff : FastForward} {commit : Bool} {message : Option String} (ho : merge r source ff commit message = .ok o) :
    JoinsApart Apart o.state := by
  obtain ⟨hmerge, -, theirs, -, hcases⟩ := merge_effect ho
  have hmoved : JoinsApart Apart (r.moveHead theirs).settleEdits :=
    h.noMerge (moveHead_commits r theirs) ((Repoints.moveHead r theirs).mergeHead.trans hmerge)
  rcases hcases with ⟨-, -, hstate⟩ | ⟨ours, hours, ⟨-, hstate⟩ | ⟨-, -, -, -, hstate⟩ | ⟨hold, -, -, ho⟩⟩
  · rw [hstate]
    exact hmoved
  · rw [hstate]
    exact h
  · rw [hstate]
    exact hmoved
  · exact trueMerge_joinsApart h hours (houtside ours theirs (hw.head_stored hours) hold) hmerge ho

theorem reset_joinsApart (h : JoinsApart Apart r) {target : Option String} {mode : ResetMode}
    (ho : reset r target mode = .ok o) : JoinsApart Apart o.state := by
  obtain ⟨-, rfl⟩ := reset_effect ho
  have hrepoints := resetHead_repoints r (startPoint r target)
  exact (h.noMerge hrepoints.commits hrepoints.mergeHead).editsOnly (editsOnly_resetOutcome _ _ mode)

/-- **Operations keep the two sides of every merge apart**, in whatever sense a commit is apart from one that is not in its
history. -/
theorem step_joinsApart (hw : WellFormed r) (h : JoinsApart Apart r)
    (houtside : ∀ p q, r.commits.contains p = true → r.isAncestor q p = false → Apart p q) {op : Operation}
    (hstep : step r op = .ok o) : JoinsApart Apart o.state := by
  cases step_effect hstep with
  | edits hedits => exact h.editsOnly hedits
  | init initialBranch ho => exact ho ▸ init_joinsApart hw h initialBranch
  | commit args ho => exact commit_joinsApart h ho
  | branch op ho => exact branch_joinsApart h ho
  | checkout target mode ho => exact checkout_joinsApart h ho
  | merge source ff commit message ho => exact merge_joinsApart hw h houtside ho
  | abort ho =>
    obtain ⟨-, hstate⟩ := abortMerge_effect ho
    rw [hstate]
    exact h.noMerge rfl rfl
  | reset target mode ho => exact reset_joinsApart h ho

end Operations

/-! ## Distinct parents -/

/-- the parents of every commit are distinct, and so are those of the commit that a pending merge will make -/
structure DistinctParents (r : Repository) : Prop where
  commit : ∀ id c, r.commits.get? id = some c → c.parents.Nodup
  merging : ∀ m, r.mergeHead = some m → ∃ h, r.headId = some h ∧ h ≠ m

theorem DistinctParents.parentsOf {r : Repository} (h : DistinctParents r) (id : CommitId) : (r.parentsOf id).Nodup := by
  unfold Repository.parentsOf
  split
  · rename_i c hc
    exact h.commit id c hc
  · exact List.nodup_nil

theorem Reachable.joinsDistinct {r : Repository} (h : Reachable r) : JoinsApart (· ≠ ·) r := by
  induction h with
  | new branch => exact .new branch
  | apply hr ho ih =>
    refine step_joinsApart hr.wellFormed ih (fun p q _ houtside => ?_) (apply_eq_ok.1 ho).1
    rintro rfl
    simp [Repository.isAncestor] at houtside

theorem Reachable.distinctParents {r : Repository} (h : Reachable r) : DistinctParents r := by
  refine ⟨fun id c hc => ?_, h.joinsDistinct.merging⟩
  have harity := (h.wellFormed.commit id c hc).arity
  match hparents : c.parents with
  | [] => exact List.nodup_nil
  | [p] => simp
  | [p, q] => simpa using h.joinsDistinct.commit id c hc p q hparents
  | _ :: _ :: _ :: _ =>
    rw [hparents] at harity
    simp at harity

end RepoTutor.Transition
