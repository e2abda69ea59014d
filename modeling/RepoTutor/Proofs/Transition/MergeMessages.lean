/-
Messages of merges that are given none.

A merge at once is called after the branch that was named. A merge that is concluded later does not know that name any
more: it looks for the first branch, in ascending order, at the commit that is merged (`FirstAt`,
`defaultMergeMessage_eq_iff`). The two make the same commit but for its message, so they agree exactly when the branch that
was named is the first one at its commit (`default_messages_agree_iff`). Another branch there with a smaller name is taken
for the merged one (`alias_is_called_merged`).
-/
import RepoTutor.Proofs.Transition.PendingMerge

namespace RepoTutor.Transition

open Command Repo

/-! ## The first branch at a commit -/

/-- the first of the branches at a commit, in ascending order of their names -/
def FirstAt (r : Repository) (id : CommitId) (name : BranchName) : Prop :=
  r.branches.get? name = some id ∧ ∀ other, r.branches.get? other = some id → name ≤ other

theorem FirstAt.unique {r : Repository} {id : CommitId} {name name' : BranchName} (h : FirstAt r id name)
    (h' : FirstAt r id name') : name = name' :=
  String.le_antisymm (h.2 name' h'.1) (h'.2 name h.1)

theorem firstAt_of_find? {r : Repository} {id : CommitId} {e : BranchName × CommitId}
    (h : r.branches.entries.find? (fun e => e.2 == id) = some e) : FirstAt r id e.1 := by
  obtain ⟨hid, before, after, hentries, hbefore⟩ := List.find?_eq_some_iff_append.1 h
  have hid : e.2 = id := by simpa using hid
  refine ⟨Table.get?_eq_some_iff.2 ?_, fun other hother => String.not_lt.1 (fun hlt => ?_)⟩
  · rw [hentries, ← hid]
    simp
  · have hmem := Table.get?_eq_some_iff.1 hother
    have hascending := r.branches.ascending
    rw [hentries] at hmem hascending
    rcases List.mem_append.1 hmem with hmem | hmem
    · simpa using hbefore _ hmem
    · have hafter := (List.pairwise_cons.1 (List.pairwise_append.1 hascending).2.1).1
      rcases List.mem_cons.1 hmem with rfl | hmem
      · exact String.lt_irrefl _ hlt
      · exact String.lt_irrefl _ (String.lt_trans hlt (hafter _ hmem))

/-- the message that a merge is concluded with names the first branch at the merged commit -/
theorem defaultMergeMessage_eq_iff {r : Repository} {id : CommitId} {name : BranchName} :
    defaultMergeMessage r id = "Merge branch '" ++ name ++ "'" ↔ FirstAt r id name := by
  unfold defaultMergeMessage
  cases hfind : r.branches.entries.find? (fun e => e.2 == id) with
  | none =>
    constructor
    · intro h
      simpa using congrArg String.toList h
    · intro h
      have hmem := Table.get?_eq_some_iff.1 h.1
      simpa using List.find?_eq_none.1 hfind _ hmem
  | some e =>
    have hfirst := firstAt_of_find? hfind
    constructor
    · intro h
      have hname : e.1 = name := by simpa using h
      exact hname ▸ hfirst
    · intro h
      simp [hfirst.unique h]

/-! ## Concluding without a message -/

/-- a commit that concludes a merge without a message is one with the message that is found -/
theorem commit_unnamed {q : Repository} {theirs : CommitId} (hpending : q.mergeHead = some theirs) (allowEmpty : Bool) :
    commit q { allowEmpty := allowEmpty } =
      commit q { message := some (defaultMergeMessage q theirs), allowEmpty := allowEmpty } := by
  simp [commit, freshDraft, commitMessage, hpending]

/-- **Merging at once and concluding a merge, both without a message.** Let the merge of a branch stop before committing.
It could have been committed at once, and it can be concluded. The two commits have the same parents, author, time and
tree. The one made at once is called after the branch that was named, the other one after the branch that is found at the
merged commit. They are the same commit, and lead to the same repository, exactly if the branch that was named is the first
one there. Each of the two is accepted while its commit does not get the identifier of another one. -/
theorem default_messages_agree_iff {r : Repository} (hr : Reachable r) {source : BranchName}
    (hsource : r.branches.contains source = true) {ff : FastForward} {given : Option String} {p : Outcome}
    (hp : apply r (.merge (.start source ff false given)) = .ok p) {theirs : CommitId}
    (hpending : p.state.mergeHead = some theirs) (allowEmpty : Bool) :
    ∃ joined concluded c, step r (.merge (.start source ff true none)) = .ok joined
      ∧ step p.state (.commit { allowEmpty := allowEmpty }) = .ok concluded
      ∧ joined.state.headCommit = some c ∧ c.message = "Merge branch '" ++ source ++ "'"
      ∧ concluded.state.headCommit =
          some (.make c.parents c.author c.timestamp (defaultMergeMessage r theirs) c.tree)
      ∧ (concluded.state.headCommit = joined.state.headCommit ↔ FirstAt r theirs source)
      ∧ (concluded.state = joined.state ↔ FirstAt r theirs source)
      ∧ (DistinctCommitIds r joined.state → apply r (.merge (.start source ff true none)) = .ok joined)
      ∧ (DistinctCommitIds r concluded.state →
          apply p.state (.commit { allowEmpty := allowEmpty }) = .ok concluded) := by
  have hw := hr.wellFormed
  obtain ⟨ours, theirs', merged, hours, hmerge, hmergeable, hstate, hmerges⟩ :=
    merge_stopped hw (apply_eq_ok.1 hp).1 (Option.isSome_of_eq_some hpending)
  have hparts : p.state.headId = some ours ∧ p.state.mergeHead = some theirs' ∧ p.state.headTree = r.headTree
      ∧ p.state.branches = r.branches ∧ p.state.commits = r.commits := by
    rw [hstate, pendingMerge_eq]
    exact ⟨hours, rfl, rfl, rfl, rfl⟩
  obtain ⟨hhead, hmergeHead, htree, hbranches, hcommits⟩ := hparts
  obtain rfl : theirs' = theirs := Option.some.inj (hmergeHead.symm.trans hpending)
  -- both make the commit of the merge, each with its message
  let made (message : String) : Commit := mergeCommit r source ours theirs' (some message) merged
  obtain ⟨joined, hjoined, hjoinedState⟩ := hmerges none
  have hjoinedState : joined.state = (addCommit r (made (mergeMessage r source))).settleEdits := hjoinedState
  have hmessage : defaultMergeMessage p.state theirs' = defaultMergeMessage r theirs' := by
    rw [defaultMergeMessage, defaultMergeMessage, hbranches]
  obtain ⟨concluded, hconcluded, hconcludedState⟩ :=
    commit_concludes (Option.isSome_of_eq_some hpending) (defaultMergeMessage r theirs') allowEmpty
  rw [← hmessage, ← commit_unnamed hpending] at hconcluded
  rw [hhead, hmergeHead, htree, hstate] at hconcludedState
  have hconcludedState : concluded.state = (addCommit r (made (defaultMergeMessage r theirs'))).settleEdits :=
    hconcludedState.trans (hmergeable.committed_pendingMerge theirs' hmerge source _)
  have hnamed : mergeMessage r source = "Merge branch '" ++ source ++ "'" := if_pos hsource
  rw [hnamed] at hjoinedState
  -- HEAD is at the new commit, and the commits differ if the messages do
  have hheadCommit : ∀ c, (addCommit r c).settleEdits.headCommit = some c := fun c => by
    rw [(editsOnly_settleEdits _).headCommit, headCommit_addCommit]
  have hcommits' : concluded.state.headCommit = joined.state.headCommit ↔ FirstAt r theirs' source := by
    rw [← defaultMergeMessage_eq_iff, hconcludedState, hjoinedState, hheadCommit, hheadCommit]
    exact ⟨fun h => congrArg Commit.message (Option.some.inj h), fun h => by rw [h]⟩
  have hstates : concluded.state = joined.state ↔ FirstAt r theirs' source := by
    refine ⟨fun h => hcommits'.1 (by rw [h]), fun h => ?_⟩
    rw [hconcludedState, hjoinedState, defaultMergeMessage_eq_iff.2 h]
  refine ⟨joined, concluded, made ("Merge branch '" ++ source ++ "'"), hjoined, hconcluded, ?_, rfl, ?_, hcommits',
    hstates, fun hdistinct => apply_of_step hw hjoined hdistinct, fun hdistinct => ?_⟩
  · rw [hjoinedState, hheadCommit]
  · rw [hconcludedState, hheadCommit]
    rfl
  · refine apply_of_step (apply_wellFormed hw hp) hconcluded ?_
    rwa [DistinctCommitIds, hcommits]

/-! ## Another branch at the merged commit -/

/-- another branch at the newer commit, with a smaller name than the one that is merged -/
def aliased : Repository := { lagging with branches := lagging.branches.insert "draft" newerCommit.id }

theorem aliased_reachable : Reachable aliased := by
  have hfree : lagging.branches.contains "draft" = false := by
    simp [Table.contains, lagging, advanced, branched, lone, Repository.new]
  have htarget : resolveRef lagging "main" = .ok newerCommit.id := by rw [resolveRef, lagging_resolve]
  have hstep : step lagging (.branch (.create "draft" (some "main"))) = .ok (silently aliased) := by
    simp [step, branch, createBranch, hfree, htarget, aliased, bind, Except.bind, pure, Except.pure]
  exact (lagging_cleanRun.step_same hstep rfl).reachable

/-- without a fast-forward, a merge that is not committed stops -/
theorem aliased_stops :
    ∃ p, apply aliased (.merge (.start "main" .never false none)) = .ok p ∧ p.state.mergeHead = some newerCommit.id := by
  have hw := aliased_reachable.wellFormed
  have hhead : aliased.headId = some olderCommit.id := by
    simp [Repository.headId, aliased, lagging, advanced, branched]
  have hsource : aliased.resolve "main" = some newerCommit.id := by
    simp [Repository.resolve, Repository.resolveBase, aliased, lagging, advanced, isStepMark, parseSteps?]
  have hnewer : aliased.ProperAncestor olderCommit.id newerCommit.id :=
    .single (Repository.isParent_iff.2
      ⟨newerCommit, by simp [aliased, lagging, advanced], by simp [newerCommit, Commit.make]⟩)
  obtain ⟨base, hbase⟩ := Option.isSome_iff_exists.1
    (Repository.mergeBase_isSome_iff.2 ⟨olderCommit.id, Repository.Ancestor.refl _ _, hnewer.ancestor⟩)
  have hcommits : aliased.commits = lagging.commits := by simp only [aliased]
  have hempty : ∀ id, aliased.treeOf id = .empty := fun id => (treeOf_congr hcommits id).trans (lagging_treeOf id)
  have hmerged : mergeTrees (aliased.treeOf (some base)) (aliased.treeOf (some olderCommit.id))
      (aliased.treeOf (some newerCommit.id)) = .ok .empty := by
    simp only [hempty]
    rfl
  obtain ⟨p, hp, hstate⟩ := trueMerge_succeeds hbase hmerged rfl "main" false none
  have hstopped : p.state = { aliased with mergeHead := some newerCommit.id } := by
    rw [hstate, hempty]
    rfl
  have hstep : step aliased (.merge (.start "main" .never false none)) = .ok p :=
    (merge_never_eq hw.acyclic hhead hsource hnewer rfl rfl false none).trans hp
  exact ⟨p, apply_of_same hw hstep (by rw [hstopped]), by rw [hstopped]⟩

/-- the merge of a branch is concluded under the name of another branch that is at its commit -/
theorem alias_is_called_merged :
    Reachable aliased ∧ aliased.branches.contains "main" = true
      ∧ ∃ p joined concluded c c', apply aliased (.merge (.start "main" .never false none)) = .ok p
        ∧ p.state.mergeHead = some newerCommit.id
        ∧ step aliased (.merge (.start "main" .never true none)) = .ok joined
        ∧ step p.state (.commit {}) = .ok concluded
        ∧ joined.state.headCommit = some c ∧ c.message = "Merge branch 'main'"
        ∧ concluded.state.headCommit = some c' ∧ c'.message = "Merge branch 'draft'" := by
  have hsource : aliased.branches.contains "main" = true := by simp [Table.contains, aliased, lagging, advanced]
  have hdraft : FirstAt aliased newerCommit.id "draft" := by
    refine ⟨by simp [aliased], fun other hother => ?_⟩
    have hnames : "draft" = other ∨ "main" = other ∨ "old" = other := by
      simp only [aliased, lagging, advanced, branched, lone, Table.get?_insert, Table.get?_empty] at hother
      grind
    rcases hnames with rfl | rfl | rfl <;> decide
  obtain ⟨p, hp, hpending⟩ := aliased_stops
  obtain ⟨joined, concluded, c, hjoined, hconcluded, hc, hmessage, hc', -⟩ :=
    default_messages_agree_iff aliased_reachable hsource hp hpending false
  exact ⟨aliased_reachable, hsource, p, joined, concluded, c, _, hp, hpending, hjoined, hconcluded, hc, hmessage, hc',
    defaultMergeMessage_eq_iff.2 hdraft⟩

end RepoTutor.Transition
