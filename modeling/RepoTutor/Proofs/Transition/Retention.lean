/-
No operation loses history silently.

What is kept of the history is what a branch, HEAD or a pending merge has among its ancestors. HEAD moves on only to
commits that continue it, a branch is deleted without force only when HEAD's history holds it, and a checkout leaves the
branch that HEAD was on where it is. So operations keep all that is reachable, except for those that are meant to leave
commits behind (`leavesBehind`); `reachable_stays` is the statement for all operations.
-/
import RepoTutor.Proofs.Transition.AppendOnly
import RepoTutor.Proofs.Transition.EmptyCommits

namespace RepoTutor.Transition

open Command Repo

/-- operations that may leave commits behind: those that rewrite, force or give up, and a checkout that moves a detached
HEAD away -/
def leavesBehind (r : Repository) : Operation → Bool
  | .commit args => args.amend
  | .branch (.delete _ force) => force
  | .checkout _ (.create _ true) => true
  | .checkout _ _ => r.detachedAt.isSome
  | .merge .abort => true
  | .reset _ _ => true
  | _ => false

theorem attached_of_checkout {r : Repository} {target : String} {mode : CheckoutMode}
    (h : leavesBehind r (.checkout target mode) = false) :
    (∀ start, mode ≠ .create start true) ∧ r.detachedAt = none := by
  refine ⟨?_, ?_⟩
  · rintro start rfl
    cases h
  · cases mode with
    | create start force =>
      cases force with
      | true => cases h
      | false => simpa [leavesBehind] using h
    | _ => simpa [leavesBehind] using h

section Kept

variable {r r' : Repository}

/-! ## Roots -/

/-- branches, HEAD and a pending merge stay -/
theorem reachable_of_roots (hcommits : Table.Extends r.commits r'.commits)
    (hbranches : ∀ name x, r.branches.get? name = some x → x ∈ r'.reachable)
    (hhead : ∀ x, r.headId = some x → x ∈ r'.reachable) (hmerge : ∀ x, r.mergeHead = some x → x ∈ r'.reachable) :
    r.reachable ⊆ r'.reachable := by
  refine Repository.reachable_mono hcommits (fun root hroot => ?_)
  rcases Repository.mem_roots.1 hroot with ⟨name, hname⟩ | hid | hid
  · exact hbranches name root hname
  · exact hhead root hid
  · exact hmerge root hid

theorem branch_mem_reachable {name : BranchName} {x : CommitId} (h : r.branches.get? name = some x) :
    x ∈ r.reachable :=
  Repository.reachable_of_root (Repository.mem_roots.2 (Or.inl ⟨name, h⟩))

theorem head_mem_reachable {x : CommitId} (h : r.headId = some x) : x ∈ r.reachable :=
  Repository.reachable_of_root (Repository.mem_roots.2 (Or.inr (Or.inl h)))

theorem mergeHead_mem_reachable {x : CommitId} (h : r.mergeHead = some x) : x ∈ r.reachable :=
  Repository.reachable_of_root (Repository.mem_roots.2 (Or.inr (Or.inr h)))

theorem reachable_sameRoots (hcommits : r'.commits = r.commits) (hbranches : r'.branches = r.branches)
    (hhead : r'.headId = r.headId) (hmerge : ∀ x, r.mergeHead = some x → r'.mergeHead = some x) :
    r.reachable ⊆ r'.reachable := by
  refine reachable_of_roots (hcommits ▸ .refl _) (fun name x hx => ?_) (fun x hx => ?_) (fun x hx => ?_)
  · exact branch_mem_reachable (hbranches ▸ hx)
  · exact head_mem_reachable (hhead ▸ hx)
  · exact mergeHead_mem_reachable (hmerge x hx)

/-- a branch that moves along with HEAD stood where HEAD was -/
theorem branch_moveHead {name : BranchName} {x : CommitId} (id : CommitId) (h : r.branches.get? name = some x) :
    (r.moveHead id).branches.get? name = some x ∨ r.headId = some x := by
  cases hhead : r.head with
  | attached current =>
    by_cases hcurrent : current = name
    · subst hcurrent
      exact Or.inr (by rw [Repository.headId, hhead]; exact h)
    · refine Or.inl ?_
      simp only [Repository.moveHead, hhead]
      rw [Table.get?_insert, if_neg hcurrent]
      exact h
  | detached current =>
    refine Or.inl ?_
    simp only [Repository.moveHead, hhead]
    exact h

/-- HEAD moves on to a commit whose history holds the old HEAD and the commit that was being merged -/
theorem reachable_of_advance (id : CommitId) (hcommits : Table.Extends r.commits r'.commits)
    (hid : r'.headId = some id) (hbranches : r'.branches = (r.moveHead id).branches)
    (hours : ∀ x, r.headId = some x → r'.Ancestor x id) (hmerge : ∀ x, r.mergeHead = some x → r'.Ancestor x id) :
    r.reachable ⊆ r'.reachable := by
  have hold : ∀ x, r'.Ancestor x id → x ∈ r'.reachable := fun x hx =>
    Repository.mem_reachable.2 ⟨id, Repository.mem_roots.2 (Or.inr (Or.inl hid)), hx⟩
  refine reachable_of_roots hcommits (fun name x hx => ?_) (fun x hx => hold x (hours x hx))
    (fun x hx => hold x (hmerge x hx))
  rcases branch_moveHead id hx with hstays | hmoves
  · exact branch_mem_reachable (hbranches ▸ hstays)
  · exact hold x (hours x hmoves)

end Kept

/-! ## Operations -/

section Operations

variable {r : Repository} {o : Outcome}

theorem init_reachable (hw : WellFormed r) (initialBranch : Option BranchName) :
    r.reachable ⊆ (init r initialBranch).state.reachable := by
  rcases init_effect r initialBranch with hstate | ⟨name, -, hcommits, -, -⟩
  · rw [hstate]
    exact fun x hx => hx
  · -- without commits there is nothing to keep
    intro x hx
    obtain ⟨c, hc⟩ := Table.contains_eq_true.1 (hw.reachable_stored hx)
    rw [Table.isEmpty_iff.1 hcommits x] at hc
    cases hc

theorem commit_reachable {args : CommitArgs} (hamend : args.amend = false) (ho : commit r args = .ok o)
    (hcommits : Table.Extends r.commits o.state.commits) : r.reachable ⊆ o.state.reachable := by
  obtain ⟨d, hd, -, hstate⟩ := commit_effect ho
  rw [hamend] at hd
  obtain ⟨-, message, -, hdraft⟩ := freshDraft_effect hd
  have hedits := editsOnly_stagedFor r args
  have hadds := committed_addsCommit (stagedFor r args) d
  have hparents : (d.commitIn (stagedFor r args)).parents = r.headId.toList ++ r.mergeHead.toList := by
    rw [Draft.commitIn, Commit.make, hdraft, hedits.headId, hedits.mergeHead]
  have hancestor : ∀ x ∈ r.headId.toList ++ r.mergeHead.toList,
      o.state.Ancestor x (d.commitIn (stagedFor r args)).id := by
    intro x hx
    refine .of_parent (Repository.isParent_iff.2 ⟨_, ?_, hparents ▸ hx⟩) (Repository.Ancestor.refl _ _)
    rw [hstate, hadds.get?_id]
  refine reachable_of_advance _ hcommits (hstate ▸ hadds.headId) ?_ (fun x hx => ?_) (fun x hx => ?_)
  · have hstored : (stagedFor r args).storeStaged.branches = r.branches
        ∧ (stagedFor r args).storeStaged.head = r.head := by
      rw [Repository.storeStaged_eq]
      exact ⟨hedits.branches, hedits.head⟩
    rw [hstate]
    exact (addCommit_branches _ _).trans (moveHead_branches hstored.1 hstored.2 _)
  · exact hancestor x (by simp [hx])
  · exact hancestor x (by simp [hx])

/-- a branch that is deleted without force stands in HEAD's history; every other branch is kept, under some name -/
theorem branch_branches {op : BranchOp} (ho : branch r op = .ok o) {name : BranchName} {x : CommitId}
    (hx : r.branches.get? name = some x) :
    (∃ name', o.state.branches.get? name' = some x)
      ∨ ∃ force, op = .delete name force ∧ (force = true ∨ isMerged r x = true) := by
  rcases branch_effect ho with
    ⟨-, hstate⟩ | ⟨new, start, -, ho⟩ | ⟨old, force, hop, ho⟩ | ⟨given, source, target, -, -, ho⟩
  · exact Or.inl ⟨name, by rw [hstate]; exact hx⟩
  · obtain ⟨id, -, hnew, hstate⟩ := createBranch_effect ho
    refine Or.inl ⟨name, ?_⟩
    have hne : new ≠ name := by
      rintro rfl
      rw [Table.contains_of_get? hx] at hnew
      cases hnew
    rw [hstate, Table.get?_insert, if_neg hne]
    exact hx
  · obtain ⟨id, hid, -, hmerged, hstate⟩ := deleteBranch_effect ho
    by_cases hname : old = name
    · subst hname
      rw [hid] at hx
      cases hx
      exact Or.inr ⟨force, hop, hmerged⟩
    · refine Or.inl ⟨name, ?_⟩
      rw [hstate, Table.get?_erase, if_neg hname]
      exact hx
  · rcases renameBranch_effect ho with ⟨-, hstate⟩ | ⟨-, hnew, ⟨id, hid, hstate⟩ | ⟨-, -, hstate⟩⟩
    · exact Or.inl ⟨name, by rw [hstate]; exact hx⟩
    · by_cases hname : source = name
      · subst hname
        rw [hid] at hx
        cases hx
        exact Or.inl ⟨target, by rw [hstate, Table.get?_insert, if_pos rfl]⟩
      · refine Or.inl ⟨name, ?_⟩
        have hne : target ≠ name := by
          rintro rfl
          rw [Table.contains_of_get? hx] at hnew
          cases hnew
        rw [hstate, Table.get?_insert, if_neg hne, Table.get?_erase, if_neg hname]
        exact hx
    · exact Or.inl ⟨name, by rw [hstate]; exact hx⟩

theorem isMerged_eq_true {id : CommitId} : isMerged r id = true ↔ ∃ head, r.headId = some head ∧ r.Ancestor id head := by
  unfold isMerged
  cases r.headId with
  | none => simp
  | some head => simp [Repository.isAncestor_iff]

theorem branch_reachable {op : BranchOp} (hforce : ∀ name, op ≠ .delete name true) (ho : branch r op = .ok o) :
    r.reachable ⊆ o.state.reachable := by
  have hrepoints := branch_repoints ho
  have hcommits : Table.Extends r.commits o.state.commits := hrepoints.commits ▸ .refl _
  refine reachable_of_roots hcommits (fun name x hx => ?_) (fun x hx => head_mem_reachable (branch_headId ho hx))
    (fun x hx => mergeHead_mem_reachable (hrepoints.mergeHead.trans hx))
  rcases branch_branches ho hx with ⟨name', hname'⟩ | ⟨force, hop, hforced | hmerged⟩
  · exact branch_mem_reachable hname'
  · exact absurd (hforced ▸ hop) (hforce name)
  · obtain ⟨head, hhead, hold⟩ := isMerged_eq_true.1 hmerged
    exact Repository.mem_reachable.2
      ⟨head, Repository.mem_roots.2 (Or.inr (Or.inl (branch_headId ho hhead))), hold.mono hcommits⟩

/-- a deletion that is not forced lets nothing go, and adds nothing -/
theorem deleteBranch_reachable {name : BranchName} (ho : deleteBranch r name false = .ok o) :
    o.state.reachable = r.reachable := by
  obtain ⟨id, hid, -, hmerged, hstate⟩ := deleteBranch_effect ho
  obtain ⟨head, hhead, -⟩ := isMerged_eq_true.1 (hmerged.resolve_left (by simp))
  have hbranch : branch r (.delete name false) = .ok o := ho
  have hrepoints := branch_repoints hbranch
  have hkeep : r.reachable ⊆ o.state.reachable := branch_reachable (fun _ h => by cases h) hbranch
  have hback : o.state.reachable ⊆ r.reachable := by
    refine reachable_of_roots (hrepoints.commits ▸ .refl _) (fun other x hx => ?_) (fun x hx => ?_) (fun x hx => ?_)
    · rw [hstate, Table.get?_erase] at hx
      split at hx
      · cases hx
      · exact branch_mem_reachable hx
    · rw [branch_headId hbranch hhead] at hx
      exact head_mem_reachable (hhead.trans hx)
    · exact mergeHead_mem_reachable (hrepoints.mergeHead.symm.trans hx)
  exact Repository.reachable_ext (fun x => ⟨fun hx => hback hx, fun hx => hkeep hx⟩)

/-- a checkout that is not forced moves no branch -/
theorem checkout_branches {target : String} {mode : CheckoutMode} (hforce : ∀ start, mode ≠ .create start true)
    (ho : checkout r target mode = .ok o) : Table.Extends r.branches o.state.branches := by
  have hdetached : checkoutDetached r target = .ok o → o.state.branches = r.branches := by
    intro ho
    obtain ⟨id, -, -, hstate⟩ := checkoutDetached_effect ho
    rw [hstate]
    rfl
  have hnamed : ∀ branchOnly, checkoutNamed r target branchOnly = .ok o → o.state.branches = r.branches := by
    intro branchOnly ho
    rcases checkoutNamed_effect ho with ⟨-, hstate⟩ | ⟨id, -, -, hstate⟩ | ⟨-, -, ho⟩
    · rw [hstate]
    · rw [hstate]
      rfl
    · exact hdetached ho
  rcases (checkout_effect ho).2 with ⟨start, force, hmode, ho⟩ | ⟨-, ho⟩ | ⟨-, ho⟩ | ⟨-, ho⟩
  · obtain ⟨hexisting, ⟨id, -, -, hstate⟩ | ⟨-, -, hstate⟩⟩ := checkoutNew_effect ho
    · intro name x hx
      have hne : target ≠ name := by
        rintro rfl
        exact hforce start (by rw [hmode, hexisting (Table.contains_of_get? hx)])
      have hinsert : o.state.branches = r.branches.insert target id := by rw [hstate]; rfl
      rw [hinsert, Table.get?_insert, if_neg hne]
      exact hx
    · rw [hstate]
      exact .refl _
  · exact hdetached ho ▸ .refl _
  · exact hnamed true ho ▸ .refl _
  · exact hnamed false ho ▸ .refl _

theorem checkout_reachable {target : String} {mode : CheckoutMode} (hforce : ∀ start, mode ≠ .create start true)
    (hattached : r.detachedAt = none) (ho : checkout r target mode = .ok o) : r.reachable ⊆ o.state.reachable := by
  have hbranches := checkout_branches hforce ho
  have hkept : ∀ name x, r.branches.get? name = some x → x ∈ o.state.reachable :=
    fun name x hx => branch_mem_reachable (hbranches name x hx)
  refine reachable_of_roots ((checkout_repoints ho).commits ▸ .refl _) hkept (fun x hx => ?_) (fun x hx => ?_)
  · -- HEAD is on a branch, and that stays where it is
    cases hhead : r.head with
    | attached name =>
      rw [Repository.headId, hhead] at hx
      exact hkept name x hx
    | detached id =>
      rw [Repository.detachedAt, hhead] at hattached
      cases hattached
  · rw [(checkout_effect ho).1] at hx
    cases hx

theorem trueMerge_reachable {source : String} {ours theirs : CommitId} {commit : Bool} {message : Option String}
    (hours : r.headId = some ours) (hmerge : r.mergeHead = none)
    (ho : trueMerge r source ours theirs commit message = .ok o) (hcommits : Table.Extends r.commits o.state.commits) :
    r.reachable ⊆ o.state.reachable := by
  obtain ⟨base, merged, -, -, -, ⟨-, hstate⟩ | ⟨-, hstate⟩⟩ := trueMerge_effect ho
  · have hparent : o.state.IsParent ours (mergeCommit r source ours theirs message merged).id := by
      refine Repository.isParent_iff.2 ⟨mergeCommit r source ours theirs message merged, ?_, List.mem_cons_self⟩
      rw [hstate]
      exact get?_addCommit r _
    refine reachable_of_advance (mergeCommit r source ours theirs message merged).id hcommits ?_ ?_
      (fun x hx => ?_) (fun x hx => by rw [hmerge] at hx; cases hx)
    · rw [hstate]
      exact headId_addCommit r _
    · rw [hstate]
      exact addCommit_branches r _
    · rw [hours] at hx
      cases hx
      exact .of_parent hparent (Repository.Ancestor.refl _ _)
  · have hedits := editsOnly_stagePaths merged (changedPaths (r.treeOf (some ours)) merged) r
    rw [hstate]
    refine reachable_sameRoots hedits.commits hedits.branches hedits.headId (fun x hx => ?_)
    rw [hmerge] at hx
    cases hx

theorem merge_reachable {source : String} {ff : FastForward} {commit : Bool} {message : Option String}
    (ho : merge r source ff commit message = .ok o) (hcommits : Table.Extends r.commits o.state.commits) :
    r.reachable ⊆ o.state.reachable := by
  obtain ⟨hmerge, -, theirs, -, hcases⟩ := merge_effect ho
  have hmoved : (∀ x, r.headId = some x → r.Ancestor x theirs) → o.state = (r.moveHead theirs).settleEdits →
      r.reachable ⊆ o.state.reachable := by
    intro hours hstate
    refine reachable_of_advance theirs hcommits ?_ (by rw [hstate]; rfl) (fun x hx => (hours x hx).mono hcommits)
      (fun x hx => by rw [hmerge] at hx; cases hx)
    rw [hstate]
    exact headId_moveHead r theirs
  rcases hcases with ⟨hunborn, -, hstate⟩ | ⟨ours, hours, ⟨-, hstate⟩ | ⟨-, hforward, -, -, hstate⟩ | ⟨-, -, -, ho⟩⟩
  · exact hmoved (fun x hx => by rw [hunborn] at hx; cases hx) hstate
  · rw [hstate]
    exact fun x hx => hx
  · refine hmoved (fun x hx => ?_) hstate
    rw [hours] at hx
    cases hx
    exact Repository.isAncestor_iff.1 hforward
  · exact trueMerge_reachable hours hmerge ho hcommits

end Operations

/-- **No operation loses history silently.** Whatever a branch, HEAD or a pending merge has among its ancestors is kept by
every operation that is not meant to leave commits behind, and a branch deletion that is not forced changes nothing about
it. -/
theorem reachable_stays {r : Repository} (hcheck : r.check = .ok ()) {op : Operation} (hop : leavesBehind r op = false)
    {o : Outcome} (ho : apply r op = .ok o) (hdistinct : DistinctCommitIds r o.state) :
    r.reachable ⊆ o.state.reachable
      ∧ ∀ name, op = .branch (.delete name false) → o.state.reachable = r.reachable := by
  have hw := Repository.check_eq_ok.1 hcheck
  have hcommits := apply_commits_extend hw ho hdistinct
  obtain ⟨hstep, -⟩ := apply_eq_ok.1 ho
  refine ⟨?_, ?_⟩
  · cases step_effect hstep with
    | edits h => exact reachable_sameRoots h.commits h.branches h.headId (fun x hx => h.mergeHead.trans hx)
    | init initialBranch h => exact h ▸ init_reachable hw initialBranch
    | commit args h => exact commit_reachable hop h hcommits
    | branch op h => exact branch_reachable (by rintro name rfl; cases hop) h
    | checkout target mode h =>
      obtain ⟨hforce, hattached⟩ := attached_of_checkout hop
      exact checkout_reachable hforce hattached h
    | merge source ff commit message h => exact merge_reachable h hcommits
    | abort h => cases hop
    | reset target mode h => cases hop
  · rintro name rfl
    exact deleteBranch_reachable hstep

/-- a branch that lags behind is deleted without force, and its commit is kept -/
theorem deletion_keeps_older_commit :
    advanced.check = .ok () ∧ leavesBehind advanced (.branch (.delete "old" false)) = false ∧
      ∃ o, apply advanced (.branch (.delete "old" false)) = .ok o ∧ o.state.branches.get? "old" = none
        ∧ olderCommit.id ∈ o.state.reachable ∧ o.state.reachable = advanced.reachable := by
  have hw : WellFormed advanced := advanced_cleanRun.reachable.wellFormed
  have hcheck := Repository.check_eq_ok.2 hw
  have hold : advanced.branches.get? "old" = some olderCommit.id := by simp [advanced, branched]
  have hhead : advanced.headId = some newerCommit.id := by
    simp [Repository.headId, advanced, branched, lone, Repository.new]
  have hparent : advanced.IsParent olderCommit.id newerCommit.id :=
    Repository.isParent_iff.2 ⟨newerCommit, by simp [advanced], by simp [newerCommit, Commit.make]⟩
  have hmerged : isMerged advanced olderCommit.id = true :=
    isMerged_eq_true.2 ⟨newerCommit.id, hhead, .of_parent hparent (Repository.Ancestor.refl _ _)⟩
  have hother : advanced.currentBranch ≠ some "old" := by
    simp [Repository.currentBranch, advanced, branched, lone, Repository.new]
  obtain ⟨o, hstep, hstate⟩ : ∃ o, step advanced (.branch (.delete "old" false)) = .ok o
      ∧ o.state = { advanced with branches := advanced.branches.erase "old" } := by
    refine ⟨say { advanced with branches := advanced.branches.erase "old" }
      ["Deleted branch " ++ "old" ++ " (was " ++ short olderCommit.id ++ ")."], ?_, rfl⟩
    simp [step, branch, deleteBranch, hold, hmerged, hother]
  have hdistinct : DistinctCommitIds advanced o.state := hw.distinct_of_same (by rw [hstate])
  have happly : apply advanced (.branch (.delete "old" false)) = .ok o := apply_of_step hw hstep hdistinct
  obtain ⟨hkept, hsame⟩ := reachable_stays hcheck rfl happly hdistinct
  refine ⟨hcheck, rfl, o, happly, ?_, hkept (branch_mem_reachable hold), hsame "old" rfl⟩
  rw [hstate, Table.get?_erase, if_pos rfl]

end RepoTutor.Transition
