/-
What renaming a branch does.

A name can be renamed if it is a branch or HEAD is attached to it (`Renamable`). What comes of a renaming is one
repository (`renamed`): under the new name stands what stood under the old one, and HEAD follows if it was attached
there. `renameBranch_eq` tells in their order why one is refused: the new name is a branch already, or the old one cannot
be renamed. A name is renamed to itself without being looked up, so this is accepted of a name that nothing is known of.

Renaming back is the inverse while HEAD was not attached to the new name before (`renamed_renamed`). On a repository that
operations lead to it cannot have been: HEAD would be unborn, and then there is no branch to rename
(`Reachable.head_elsewhere`). The main result `rename_accepted_iff` puts this together.
-/
import RepoTutor.Proofs.Transition.BornHead

namespace RepoTutor.Transition

open Command Repo

/-- a branch, or the branch that HEAD is attached to -/
def Renamable (r : Repository) (name : BranchName) : Prop := r.branches.contains name = true ∨ r.head = .attached name

instance (r : Repository) (name : BranchName) : Decidable (Renamable r name) := inferInstanceAs (Decidable (_ ∨ _))

/-- one name in the place of another -/
def renamed (r : Repository) (source target : BranchName) : Repository :=
  { r with
    branches := match r.branches.get? source with
      | some id => (r.branches.erase source).insert target id
      | none => r.branches
    head := if r.head = .attached source then .attached target else r.head }

/-! ## The renamed repository -/

section Renamed

variable {r : Repository} {source target : BranchName}

theorem get?_of_not_contains {name : BranchName} (h : r.branches.contains name = false) :
    r.branches.get? name = none :=
  Option.isNone_iff_eq_none.1 (by simpa [Table.contains] using h)

/-- under the new name stands what stood under the old one, and nothing is left there -/
theorem get?_renamed (hfree : target = source ∨ r.branches.contains target = false) (name : BranchName) :
    (renamed r source target).branches.get? name =
      if name = target then r.branches.get? source else if name = source then none else r.branches.get? name := by
  cases hid : r.branches.get? source with
  | some id =>
    have hbranches : (renamed r source target).branches = (r.branches.erase source).insert target id := by
      simp only [renamed, hid]
    rw [hbranches, Table.get?_insert, Table.get?_erase]
    simp only [eq_comm]
  | none =>
    have hbranches : (renamed r source target).branches = r.branches := by simp only [renamed, hid]
    rw [hbranches]
    split
    · rename_i hname
      rcases hfree with rfl | hfree
      · rw [hname, hid]
      · rw [hname, get?_of_not_contains hfree]
    · split
      · rename_i hname
        rw [hname, hid]
      · rfl

theorem renamed_eq (r : Repository) (source target : BranchName) :
    renamed r source target =
      { r with branches := (renamed r source target).branches, head := (renamed r source target).head } :=
  rfl

theorem renamed_head (r : Repository) (source target : BranchName) :
    (renamed r source target).head = if r.head = .attached source then .attached target else r.head :=
  rfl

theorem renamed_self (r : Repository) (name : BranchName) : renamed r name name = r := by
  have hbranches : (renamed r name name).branches = r.branches := by
    refine Table.ext_get? (fun name' => ?_)
    rw [get?_renamed (Or.inl rfl)]
    split
    · rename_i heq
      rw [heq]
    · rfl
  have hhead : (renamed r name name).head = r.head := by
    rw [renamed_head]
    split
    · rename_i heq
      exact heq.symm
    · rfl
  rw [renamed_eq, hbranches, hhead]

/-- the new name is free to be given back -/
theorem renamed_free (hfree : target = source ∨ r.branches.contains target = false) :
    source = target ∨ (renamed r source target).branches.contains source = false := by
  by_cases hsame : source = target
  · exact Or.inl hsame
  · refine Or.inr ?_
    rw [Table.contains, get?_renamed hfree, if_neg hsame, if_pos rfl]
    rfl

/-- the new name can be renamed in its turn -/
theorem renamable_renamed (hsource : Renamable r source) (hfree : target = source ∨ r.branches.contains target = false) :
    Renamable (renamed r source target) target := by
  rcases hsource with hsource | hsource
  · left
    rw [Table.contains, get?_renamed hfree, if_pos rfl]
    exact hsource
  · right
    rw [renamed_head, if_pos hsource]

/-- **Renaming back restores the repository**, if HEAD was not attached to the new name before -/
theorem renamed_renamed (hfree : r.branches.contains target = false) (hhead : r.head ≠ .attached target) :
    renamed (renamed r source target) target source = r := by
  have hbranches : (renamed (renamed r source target) target source).branches = r.branches := by
    refine Table.ext_get? (fun name => ?_)
    rw [get?_renamed (renamed_free (Or.inr hfree)), get?_renamed (Or.inr hfree), get?_renamed (Or.inr hfree), if_pos rfl]
    split
    · rename_i hname
      rw [hname]
    · split
      · rename_i hname
        rw [hname, get?_of_not_contains hfree]
      · rfl
  have hback : (renamed (renamed r source target) target source).head = r.head := by
    rw [renamed_head, renamed_head]
    by_cases hon : r.head = .attached source
    · rw [if_pos hon, if_pos rfl, hon]
    · rw [if_neg hon, if_neg hhead]
  rw [renamed_eq, hbranches, hback]
  rfl

end Renamed

/-! ## Answers -/

/-- **The answer of a renaming**, with the refusals in their order -/
theorem renameBranch_eq (r : Repository) (source target : BranchName) :
    renameBranch r source target =
      if source ≠ target ∧ r.branches.contains target = true then .error (.branchAlreadyExists target)
      else if source = target ∨ Renamable r source then .ok (silently (renamed r source target))
      else .error (.unknownBranch source) := by
  unfold renameBranch
  by_cases hsame : source = target
  · subst hsame
    simp [renamed_self]
  · by_cases htaken : r.branches.contains target = true
    · simp [hsame, htaken]
    · simp only [hsame, htaken, currentBranch_eq_some]
      cases hid : r.branches.get? source with
      | some id => simp [Renamable, Table.contains, hid, renamed]
      | none =>
        by_cases hon : r.head = .attached source
        · simp [Renamable, hid, hon, renamed]
        · simp [Renamable, Table.contains, hid, hon]

theorem renameBranch_eq_ok {r : Repository} {source target : BranchName} {o : Outcome} :
    renameBranch r source target = .ok o ↔
      (target = source ∨ Renamable r source ∧ r.branches.contains target = false)
        ∧ o = silently (renamed r source target) := by
  rw [renameBranch_eq]
  by_cases hsame : target = source
  · subst hsame
    simp [eq_comm (a := o)]
  · cases htaken : r.branches.contains target with
    | true => simp [hsame, Ne.symm hsame]
    | false =>
      by_cases hknown : Renamable r source
      · simp [hknown, eq_comm (a := o)]
      · simp [hknown, hsame, Ne.symm hsame]

/-- without a name the branch that HEAD is attached to is renamed -/
theorem branch_rename_eq {r : Repository} {given : Option BranchName} {source : BranchName}
    (hsource : given.or r.currentBranch = some source) (target : BranchName) :
    branch r (.rename given target) = renameBranch r source target := by
  cases given with
  | some name =>
    cases hsource
    rfl
  | none =>
    rw [Option.none_or] at hsource
    simp only [branch, hsource]

theorem branch_rename_detached {r : Repository} {given : Option BranchName} (hnone : given.or r.currentBranch = none)
    (target : BranchName) : branch r (.rename given target) = .error .detachedHead := by
  cases given with
  | some name => cases hnone
  | none =>
    rw [Option.none_or] at hnone
    simp only [branch, hnone]

/-- where there is something to rename, HEAD is not attached to a free name other than that -/
theorem Reachable.head_elsewhere {r : Repository} (h : Reachable r) {source target : BranchName}
    (hsource : Renamable r source) (hother : target ≠ source) (hfree : r.branches.contains target = false) :
    r.head ≠ .attached target := by
  intro hhead
  have hunborn : r.isUnborn = true := by
    rw [isUnborn_iff, Repository.headId, hhead]
    exact get?_of_not_contains hfree
  have hnone := Table.isEmpty_iff.1 (noBranches_of_noCommits h.wellFormed (h.unborn_iff_noCommits.1 hunborn)) source
  rcases hsource with hsource | hsource
  · rw [Table.contains, hnone] at hsource
    cases hsource
  · rw [hhead] at hsource
    cases hsource
    exact hother rfl

/-! ## Renaming in a session -/

/-- what a renaming leaves -/
structure RenamedFrom (r : Repository) (source target : BranchName) (r' : Repository) : Prop where
  /-- the key is replaced -/
  branches : ∀ name, r'.branches.get? name =
    if name = target then r.branches.get? source else if name = source then none else r.branches.get? name
  follows : r'.head = .attached target ↔ r.head = .attached source
  stays : r.head ≠ .attached source → r'.head = r.head
  others : r' = { r with branches := r'.branches, head := r'.head }

theorem RenamedFrom.of_renamed {r : Repository} {source target : BranchName}
    (hfree : target = source ∨ r.branches.contains target = false)
    (hhead : target ≠ source → r.head ≠ .attached target) : RenamedFrom r source target (renamed r source target) where
  branches := get?_renamed hfree
  follows := by
    rw [renamed_head]
    split
    · rename_i hon
      simp [hon]
    · rename_i hon
      by_cases hsame : target = source
      · rw [hsame]
      · simp [hon, hhead hsame]
  stays hon := by rw [renamed_head, if_neg hon]
  others := renamed_eq r source target

/-- a branch operation makes no commits, so the check after it passes -/
theorem apply_branch {r : Repository} (h : WellFormed r) (op : BranchOp) : apply r (.branch op) = branch r op :=
  apply_eq_step h (fun _ ho => h.distinct_of_same (branch_repoints ho).commits)

/-- the old name is given back, whether the new one is named or is the branch that HEAD is attached to -/
theorem renamed_back {r : Repository} (h : Reachable r) {source target : BranchName}
    (hallowed : target = source ∨ Renamable r source ∧ r.branches.contains target = false)
    {given : Option BranchName} (hgiven : given.or (renamed r source target).currentBranch = some target) :
    ∃ back, apply (renamed r source target) (.branch (.rename given source)) = .ok back ∧ back.state = r := by
  have hback : renameBranch (renamed r source target) target source = .ok (silently r) := by
    by_cases hsame : target = source
    · subst hsame
      rw [renameBranch_eq_ok, renamed_self, renamed_self]
      exact ⟨Or.inl rfl, rfl⟩
    · obtain ⟨hsource, hfree⟩ := hallowed.resolve_left hsame
      rw [renameBranch_eq_ok, renamed_renamed hfree (h.head_elsewhere hsource hsame hfree)]
      refine ⟨Or.inr ⟨renamable_renamed hsource (Or.inr hfree), ?_⟩, rfl⟩
      exact (renamed_free (Or.inr hfree)).resolve_left (Ne.symm hsame)
  refine ⟨silently r, apply_eq_ok.2 ⟨?_, Or.inr (Repository.check_eq_ok.2 h.wellFormed)⟩, rfl⟩
  exact (branch_rename_eq hgiven source).trans hback

/-- **Renaming a branch.** The name to rename is the one that is given, or else the branch that HEAD is attached to; with
HEAD detached there is none. It is accepted exactly if it can be renamed and the new name is its own or free, or else, of
whatever name, if the new name is the same. Then the new name stands in the place of the old one among the branches and
for HEAD, nothing else changes, and renaming back restores the repository. It is refused because the new name is taken,
or because nothing is known of the old one. -/
theorem rename_accepted_iff {r : Repository} (hr : Reachable r) (given : Option BranchName) (target : BranchName) :
    (given.or r.currentBranch = none → apply r (.branch (.rename given target)) = .error .detachedHead)
      ∧ ∀ source, given.or r.currentBranch = some source →
        ((∃ o, apply r (.branch (.rename given target)) = .ok o) ↔
            Renamable r source ∧ (target = source ∨ r.branches.contains target = false)
              ∨ ¬Renamable r source ∧ target = source)
          ∧ (∀ o, apply r (.branch (.rename given target)) = .ok o → RenamedFrom r source target o.state
              ∧ ∀ given', given'.or o.state.currentBranch = some target →
                  ∃ back, apply o.state (.branch (.rename given' source)) = .ok back ∧ back.state = r)
          ∧ (target ≠ source → r.branches.contains target = true →
              apply r (.branch (.rename given target)) = .error (.branchAlreadyExists target))
          ∧ (target ≠ source → r.branches.contains target = false → ¬Renamable r source →
              apply r (.branch (.rename given target)) = .error (.unknownBranch source)) := by
  refine ⟨fun hnone => ?_, fun source hsource => ?_⟩
  · rw [apply_branch hr.wellFormed, branch_rename_detached hnone]
  have hanswer : apply r (.branch (.rename given target)) = renameBranch r source target := by
    rw [apply_branch hr.wellFormed, branch_rename_eq hsource]
  rw [hanswer]
  refine ⟨?_, fun o ho => ?_, fun hother htaken => ?_, fun hother hfree hunknown => ?_⟩
  · simp only [renameBranch_eq_ok, exists_and_left, exists_eq, and_true]
    by_cases hknown : Renamable r source
    · simp [hknown]
    · simp [hknown]
  · obtain ⟨hallowed, rfl⟩ := renameBranch_eq_ok.1 ho
    have hfree : target = source ∨ r.branches.contains target = false := hallowed.imp_right And.right
    have hhead : target ≠ source → r.head ≠ .attached target := fun hother =>
      hr.head_elsewhere (hallowed.resolve_left hother).1 hother (hfree.resolve_left hother)
    refine ⟨.of_renamed hfree hhead, fun given' hgiven' => ?_⟩
    exact renamed_back hr hallowed hgiven'
  · rw [renameBranch_eq, if_pos ⟨Ne.symm hother, htaken⟩]
  · rw [renameBranch_eq, if_neg (by simp [hfree]), if_neg (by simp [Ne.symm hother, hunknown])]

/-- with one branch: it is renamed and renamed back, and a name without a branch is refused but as its own new name -/
theorem ghost_keeps_its_name :
    Reachable (lone olderCommit) ∧ ¬Renamable (lone olderCommit) "ghost"
      ∧ (∃ o, apply (lone olderCommit) (.branch (.rename (some "ghost") "ghost")) = .ok o)
      ∧ apply (lone olderCommit) (.branch (.rename (some "ghost") "phantom")) = .error (.unknownBranch "ghost")
      ∧ ∃ o back, apply (lone olderCommit) (.branch (.rename none "trunk")) = .ok o ∧ o.state.head = .attached "trunk"
        ∧ apply o.state (.branch (.rename none "main")) = .ok back ∧ back.state = lone olderCommit := by
  have hreachable : Reachable (lone olderCommit) := lone_reachable "first"
  have hmain : Renamable (lone olderCommit) "main" := Or.inr rfl
  have hghost : ¬Renamable (lone olderCommit) "ghost" := by simp [Renamable, lone, Repository.new, Table.contains]
  have hfree : ∀ name, "main" ≠ name → (lone olderCommit).branches.contains name = false := by
    intro name hname
    simp [lone, Table.contains, hname]
  obtain ⟨-, hnamed⟩ := rename_accepted_iff hreachable (some "ghost") "ghost"
  obtain ⟨-, hother⟩ := rename_accepted_iff hreachable (some "ghost") "phantom"
  obtain ⟨-, hcurrent⟩ := rename_accepted_iff hreachable none "trunk"
  obtain ⟨haccepted, hleaves, -⟩ := hcurrent "main" rfl
  obtain ⟨o, ho⟩ := haccepted.2 (Or.inl ⟨hmain, Or.inr (hfree "trunk" (by decide))⟩)
  obtain ⟨hrenamed, hback⟩ := hleaves o ho
  have hhead : o.state.head = .attached "trunk" := hrenamed.follows.2 rfl
  obtain ⟨back, happly, hsame⟩ := hback none (currentBranch_eq_some.2 hhead)
  exact ⟨hreachable, hghost, (hnamed "ghost" rfl).1.2 (Or.inr ⟨hghost, rfl⟩),
    (hother "ghost" rfl).2.2.2 (by decide) (hfree "phantom" (by decide)) hghost, o, back, ho, hhead, happly, hsame⟩

end RepoTutor.Transition
