/-
Every operation leads from a well-formed repository to a well-formed one.

The changes that an operation is made of are few: edits come and go, branches, HEAD and the pending merge move to stored
commits, contents are stored, and a commit is added whose parents and contents are stored. Each keeps a repository
well-formed by itself, and `step_wellFormed` puts them together for all operations.

Only adding a commit needs a premise about digests (`DistinctCommitIds`): a new commit whose identifier belongs to
another commit already would take that commit's place and could close a cycle.

`apply_eq_step` is the consequence for the check that follows every operation: it never fails, so an operation on a
well-formed repository is never refused as an internal error, and no line can halt a session.
-/
import RepoTutor.Proofs.Repo.Resolution
import RepoTutor.Proofs.Repo.TreeMerge
import RepoTutor.Proofs.Transition.Effects
import RepoTutor.Proofs.Transition.Staging

namespace RepoTutor.Repo

/-- everything that a commit's identifier is computed from -/
def Commit.content (c : Commit) : List CommitId × String × Nat × String × Tree :=
  (c.parents, c.author, c.timestamp, c.message, c.tree)

/-- among the commits of two repositories, different contents have different identifiers -/
def DistinctCommitIds (r r' : Repository) : Prop :=
  ∀ c ∈ r.commits.values ++ r'.commits.values, ∀ d ∈ r.commits.values ++ r'.commits.values,
    c.computedId = d.computedId → c.content = d.content

theorem Commit.ext_content {c d : Commit} (hid : c.id = d.id) (h : c.content = d.content) : c = d := by
  cases c
  cases d
  simp only [content, Prod.mk.injEq] at h
  simp only [Commit.mk.injEq]
  exact ⟨hid, h⟩

namespace WellFormed

variable {r r' : Repository}

/-! ## Pointers -/

/-- branches, HEAD and the pending merge may point at any stored commits; edits and clock do not matter -/
theorem repoint (h : WellFormed r) (hcommits : r'.commits = r.commits) (hblobs : r'.blobs = r.blobs)
    (hbranch : ∀ name id, r'.branches.get? name = some id → r.commits.contains id = true)
    (hhead : ∀ id, r'.head = .detached id → r.commits.contains id = true)
    (hmerge : ∀ id, r'.mergeHead = some id → r.commits.contains id = true) : WellFormed r' := by
  obtain ⟨commits, blobs, branches, head, edits, mergeHead, clock⟩ := r'
  simp only at hcommits hblobs
  subst hcommits hblobs
  exact ⟨h.blob, fun id c hc => ⟨(h.commit id c hc).key, (h.commit id c hc).content, (h.commit id c hc).arity,
    (h.commit id c hc).parents, (h.commit id c hc).blobs⟩, hbranch, hhead, hmerge, h.acyclic⟩

theorem editsOnly (h : WellFormed r) (he : Transition.EditsOnly r r') : WellFormed r' :=
  h.repoint he.commits he.blobs (fun name id hid => h.branch name id (he.branches ▸ hid))
    (fun id hid => h.head id (he.head ▸ hid)) (fun id hid => h.mergeHead id (he.mergeHead ▸ hid))

theorem settleEdits (h : WellFormed r) : WellFormed r.settleEdits :=
  h.editsOnly (Transition.editsOnly_settleEdits r)

theorem attach (h : WellFormed r) (name : BranchName) : WellFormed { r with head := .attached name } :=
  h.repoint rfl rfl h.branch (fun id hid => absurd hid (by simp)) h.mergeHead

theorem detach (h : WellFormed r) {id : CommitId} (hid : r.commits.contains id = true) :
    WellFormed { r with head := .detached id } :=
  h.repoint rfl rfl h.branch (fun id' hid' => by cases hid'; exact hid) h.mergeHead

theorem insertBranch (h : WellFormed r) (name : BranchName) {id : CommitId} (hid : r.commits.contains id = true) :
    WellFormed { r with branches := r.branches.insert name id } := by
  refine h.repoint rfl rfl (fun name' id' hid' => ?_) h.head h.mergeHead
  rw [Table.get?_insert] at hid'
  split at hid'
  · cases hid'
    exact hid
  · exact h.branch name' id' hid'

theorem eraseBranch (h : WellFormed r) (name : BranchName) :
    WellFormed { r with branches := r.branches.erase name } := by
  refine h.repoint rfl rfl (fun name' id' hid' => ?_) h.head h.mergeHead
  rw [Table.get?_erase] at hid'
  split at hid'
  · simp at hid'
  · exact h.branch name' id' hid'

theorem setMergeHead (h : WellFormed r) {id : Option CommitId}
    (hid : ∀ id', id = some id' → r.commits.contains id' = true) : WellFormed { r with mergeHead := id } :=
  h.repoint rfl rfl h.branch h.head hid

theorem endMerge (h : WellFormed r) : WellFormed { r with mergeHead := none } :=
  h.setMergeHead (fun id' hid' => absurd hid' (by simp))

theorem moveHead (h : WellFormed r) {id : CommitId} (hid : r.commits.contains id = true) :
    WellFormed (r.moveHead id) := by
  unfold Repository.moveHead
  split
  · exact h.insertBranch _ hid
  · exact h.detach hid

/-! ## Contents -/

theorem storeBlob (h : WellFormed r) (content : String) : WellFormed (r.storeBlob content) := by
  have hmono : ∀ id, r.blobs.contains id = true → (r.storeBlob content).blobs.contains id = true :=
    fun id hid => (Repository.contains_storeBlob r content id).2 (Or.inr hid)
  have hblob : ∀ id text, (r.storeBlob content).blobs.get? id = some text → id = blobId text := by
    intro id text hid
    rw [Repository.get?_storeBlob] at hid
    split at hid
    · rename_i hnew
      cases hid
      exact hnew.1.symm
    · exact h.blob id text hid
  rw [Repository.storeBlob_eq] at hblob hmono ⊢
  exact ⟨hblob, fun id c hc => ⟨(h.commit id c hc).key, (h.commit id c hc).content, (h.commit id c hc).arity,
    (h.commit id c hc).parents, fun path blob hb => hmono blob ((h.commit id c hc).blobs path blob hb)⟩,
    h.branch, h.head, h.mergeHead, h.acyclic⟩

theorem storeBlobs (h : WellFormed r) (contents : List String) :
    WellFormed (contents.foldl Repository.storeBlob r) := by
  induction contents generalizing r with
  | nil => exact h
  | cons content contents ih => exact ih (h.storeBlob content)

theorem storeStaged (h : WellFormed r) : WellFormed r.storeStaged := h.storeBlobs _

/-- a merged tree has no contents but those of the two sides -/
theorem merged_stored (h : WellFormed r) {base : Tree} {ours theirs : Option CommitId} {merged : Tree}
    (hmerged : mergeTrees base (r.treeOf ours) (r.treeOf theirs) = .ok merged) {path : Path} {blob : BlobId}
    (hb : merged.get? path = some blob) : r.blobs.contains blob = true := by
  rw [(mergeTrees_eq_ok.1 hmerged).2 path] at hb
  rcases mergedEntry_eq_some hb with hb | hb
  · exact h.tree_blob_stored hb
  · exact h.tree_blob_stored hb

end WellFormed

/-! ## A new commit -/

namespace WellFormed

variable {r : Repository}

/-- a commit under a new identifier has no children yet, so it closes no cycle -/
theorem acyclic_insertCommit (h : WellFormed r) {c : Commit} (hparents : ∀ p ∈ c.parents, r.commits.contains p = true)
    (hnew : r.commits.get? c.id = none) :
    Repository.Acyclic { r with commits := r.commits.insert c.id c } := by
  have hparent : ∀ p id, Repository.IsParent { r with commits := r.commits.insert c.id c } p id →
      p ≠ c.id ∧ (id = c.id ∨ r.IsParent p id) := by
    intro p id hp
    obtain ⟨d, hd, hmem⟩ := Repository.isParent_iff.1 hp
    rw [Table.get?_insert] at hd
    split at hd
    · rename_i hid
      cases hd
      refine ⟨?_, Or.inl hid.symm⟩
      rintro rfl
      simpa [Table.contains, hnew] using hparents c.id hmem
    · refine ⟨?_, Or.inr (Repository.isParent_iff.2 ⟨d, hd, hmem⟩)⟩
      rintro rfl
      simpa [Table.contains, hnew] using (h.commit id d hd).parents c.id hmem
  -- first the commits that were stored before, by descent in the old graph, then the new one
  have hold : ∀ id, id ≠ c.id → Acc (Repository.IsParent { r with commits := r.commits.insert c.id c }) id := by
    intro id
    induction id using h.acyclic.induction with
    | _ id ih =>
      intro hid
      refine ⟨id, fun p hp => ?_⟩
      obtain ⟨hpc, heq | hparent⟩ := hparent p id hp
      · exact absurd heq hid
      · exact ih p hparent hpc
  refine ⟨fun id => ⟨id, fun p hp => hold p (hparent p id hp).1⟩⟩

theorem insertCommit (h : WellFormed r) {c : Commit} (hid : c.computedId = c.id) (harity : c.parents.length ≤ 2)
    (hparents : ∀ p ∈ c.parents, r.commits.contains p = true)
    (hblobs : ∀ path blob, c.tree.get? path = some blob → r.blobs.contains blob = true)
    (hsame : ∀ d, r.commits.get? c.id = some d → d = c) :
    WellFormed { r with commits := r.commits.insert c.id c } := by
  cases hold : r.commits.get? c.id with
  | some d =>
    rw [Table.insert_eq_self (hsame d hold ▸ hold)]
    exact h
  | none =>
    have hmono : ∀ id, r.commits.contains id = true → (r.commits.insert c.id c).contains id = true :=
      fun id hid => (Table.contains_insert _ _ _ _).2 (Or.inr hid)
    refine ⟨h.blob, fun id d hd => ?_, fun name id hb => hmono id (h.branch name id hb),
      fun id hd => hmono id (h.head id hd), fun id hm => hmono id (h.mergeHead id hm),
      h.acyclic_insertCommit hparents hold⟩
    rw [Table.get?_insert] at hd
    split at hd
    · rename_i hcid
      cases hd
      exact ⟨hcid, hid.trans hcid, harity, fun p hp => hmono p (hparents p hp), hblobs⟩
    · have hd := h.commit id d hd
      exact ⟨hd.key, hd.content, hd.arity, fun p hp => hmono p (hd.parents p hp), hd.blobs⟩

theorem addCommit (h : WellFormed r) {c : Commit} (hid : c.computedId = c.id) (harity : c.parents.length ≤ 2)
    (hparents : ∀ p ∈ c.parents, r.commits.contains p = true)
    (hblobs : ∀ path blob, c.tree.get? path = some blob → r.blobs.contains blob = true)
    (hsame : ∀ d, r.commits.get? c.id = some d → d = c) : WellFormed (Transition.addCommit r c) := by
  have hinsert := h.insertCommit hid harity hparents hblobs hsame
  have hclock : WellFormed { r with clock := c.timestamp, commits := r.commits.insert c.id c } :=
    hinsert.repoint rfl rfl hinsert.branch hinsert.head hinsert.mergeHead
  exact hclock.moveHead ((Table.contains_insert _ _ _ _).2 (Or.inl rfl))

theorem get?_computedId (h : WellFormed r) {c : Commit} (hc : c ∈ r.commits.values) :
    r.commits.get? c.computedId = some c := by
  obtain ⟨id, hid⟩ := Table.mem_values.1 hc
  rw [(h.commit id c hid).content]
  exact hid

/-- without a new commit there is no new identifier -/
theorem distinct_of_same (h : WellFormed r) {r' : Repository} (hcommits : r'.commits = r.commits) :
    DistinctCommitIds r r' := by
  intro c hc d hd heq
  rw [hcommits, List.mem_append, or_self] at hc hd
  have hcd := h.get?_computedId hc
  rw [heq, h.get?_computedId hd] at hcd
  rw [Option.some.inj hcd]

/-- it is enough that the new commit's identifier is new -/
theorem distinct_of_insert (h : WellFormed r) {r' : Repository} {c : Commit} (hid : c.computedId = c.id)
    (hcommits : r'.commits = r.commits.insert c.id c) (hnew : r.commits.get? c.id = none) : DistinctCommitIds r r' := by
  have hold : ∀ d ∈ r.commits.values ++ r'.commits.values, d = c ∨ d ∈ r.commits.values := by
    intro d hd
    rcases List.mem_append.1 hd with hd | hd
    · exact Or.inr hd
    · obtain ⟨id, hd⟩ := Table.mem_values.1 hd
      rw [hcommits, Table.get?_insert] at hd
      split at hd
      · exact Or.inl (Option.some.inj hd).symm
      · exact Or.inr (Table.mem_values.2 ⟨id, hd⟩)
  have hother : ∀ d ∈ r.commits.values, d.computedId ≠ c.computedId := by
    intro d hd heq
    have := h.get?_computedId hd
    rw [heq, hid, hnew] at this
    cases this
  intro d hd e he heq
  rcases hold d hd with rfl | hd
  · rcases hold e he with rfl | he
    · rfl
    · exact absurd heq.symm (hother e he)
  · rcases hold e he with rfl | he
    · exact absurd heq (hother d hd)
    · exact h.distinct_of_same rfl d (List.mem_append_left _ hd) e (List.mem_append_left _ he) heq

/-- where the identifiers of two repositories are distinct, the new commit of one can only meet itself in the other -/
theorem eq_of_distinct (h : WellFormed r) {r' : Repository} (hdistinct : DistinctCommitIds r r') {c d : Commit}
    (hid : c.computedId = c.id) (hc : r'.commits.get? c.id = some c) (hd : r.commits.get? c.id = some d) : d = c := by
  have hdid := h.commit c.id d hd
  refine Commit.ext_content hdid.key (hdistinct d ?_ c ?_ (hdid.content.trans hid.symm))
  · exact List.mem_append_left _ (Table.mem_values.2 ⟨c.id, hd⟩)
  · exact List.mem_append_right _ (Table.mem_values.2 ⟨c.id, hc⟩)

end WellFormed

end RepoTutor.Repo

namespace RepoTutor.Transition

open Command Repo

/-! ## Operations -/

theorem startPoint_stored {r : Repository} (h : WellFormed r) {start : Option String} {id : CommitId}
    (hid : startPoint r start = some id) : r.commits.contains id = true := by
  cases start with
  | none => exact h.head_stored hid
  | some rev => exact h.resolve_stored hid

/-- the parents and the base of a draft are stored -/
structure DraftStored (r : Repository) (d : Draft) : Prop where
  arity : d.parents.length ≤ 2
  parents : ∀ p ∈ d.parents, r.commits.contains p = true
  base : ∀ path blob, d.base.get? path = some blob → r.blobs.contains blob = true

theorem amendDraft_stored {r : Repository} (h : WellFormed r) {args : CommitArgs} {d : Draft}
    (hd : amendDraft r args = .ok d) : DraftStored r d := by
  obtain ⟨c, hc, rfl⟩ := amendDraft_effect hd
  obtain ⟨id, -, hc⟩ := Option.bind_eq_some_iff.1 hc
  exact ⟨(h.commit id c hc).arity, (h.commit id c hc).parents, (h.commit id c hc).blobs⟩

theorem freshDraft_stored {r : Repository} (h : WellFormed r) {args : CommitArgs} {d : Draft}
    (hd : freshDraft r args = .ok d) : DraftStored r d := by
  obtain ⟨-, message, -, rfl⟩ := freshDraft_effect hd
  refine ⟨?_, fun p hp => ?_, fun path blob hb => h.tree_blob_stored hb⟩
  · cases r.headId <;> cases r.mergeHead <;> simp
  · rcases List.mem_append.1 hp with hp | hp
    · exact h.head_stored (Option.mem_toList.1 hp)
    · exact h.mergeHead p (Option.mem_toList.1 hp)

theorem committed_commits (r : Repository) (d : Draft) :
    (committed r d).commits = r.commits.insert (d.commitIn r).id (d.commitIn r) := by
  show (addCommit r.storeStaged (d.commitIn r)).commits = _
  rw [addCommit_commits, Repository.storeStaged_commits]

theorem committed_wellFormed {r : Repository} (h : WellFormed r) {d : Draft} (hd : DraftStored r d)
    (hsame : ∀ c, r.commits.get? (d.commitIn r).id = some c → c = d.commitIn r) : WellFormed (committed r d) := by
  have hcommits := Repository.storeStaged_commits r
  have hadd : WellFormed (addCommit r.storeStaged (d.commitIn r)) :=
    h.storeStaged.addCommit rfl hd.arity (fun p hp => by rw [hcommits]; exact hd.parents p hp)
      (Repository.stagedTree_stored hd.base) (fun c hc => hsame c (hcommits ▸ hc))
  exact ((hadd.editsOnly (editsOnly_dropStaged _)).endMerge).settleEdits

theorem commit_wellFormed {r : Repository} (h : WellFormed r) {args : CommitArgs} {o : Outcome}
    (ho : commit r args = .ok o) (hdistinct : DistinctCommitIds r o.state) : WellFormed o.state := by
  obtain ⟨d, hd, -, hstate⟩ := commit_effect ho
  have hstaged : WellFormed (stagedFor r args) := h.editsOnly (editsOnly_stagedFor r args)
  have hstored : DraftStored (stagedFor r args) d := by
    split at hd
    · exact amendDraft_stored hstaged hd
    · exact freshDraft_stored hstaged hd
  rw [hstate] at hdistinct ⊢
  refine committed_wellFormed hstaged hstored (fun c hc => ?_)
  rw [(editsOnly_stagedFor r args).commits] at hc
  refine h.eq_of_distinct hdistinct rfl ?_ hc
  rw [committed_commits, Table.get?_insert, if_pos rfl]

theorem branch_wellFormed {r : Repository} (h : WellFormed r) {op : BranchOp} {o : Outcome}
    (ho : branch r op = .ok o) : WellFormed o.state := by
  rcases branch_effect ho with
    ⟨-, hstate⟩ | ⟨name, start, -, ho⟩ | ⟨name, force, -, ho⟩ | ⟨given, source, target, -, -, ho⟩
  · rw [hstate]
    exact h
  · obtain ⟨id, hid, -, hstate⟩ := createBranch_effect ho
    rw [hstate]
    exact h.insertBranch name (startPoint_stored h hid)
  · obtain ⟨id, -, -, -, hstate⟩ := deleteBranch_effect ho
    rw [hstate]
    exact h.eraseBranch name
  · rcases renameBranch_effect ho with ⟨-, hstate⟩ | ⟨-, -, ⟨id, hid, hstate⟩ | ⟨-, -, hstate⟩⟩
    · rw [hstate]
      exact h
    · have hmoved := (h.eraseBranch source).insertBranch target (h.branch source id hid)
      rw [hstate]
      refine hmoved.repoint rfl rfl hmoved.branch (fun id' hid' => ?_) hmoved.mergeHead
      split at hid'
      · simp at hid'
      · exact h.head id' hid'
    · rw [hstate]
      exact h.attach target

theorem checkoutDetached_wellFormed {r : Repository} (h : WellFormed r) {rev : String} {o : Outcome}
    (ho : checkoutDetached r rev = .ok o) : WellFormed o.state := by
  obtain ⟨id, hid, -, hstate⟩ := checkoutDetached_effect ho
  rw [hstate]
  exact (h.detach (h.resolve_stored hid)).settleEdits

theorem checkoutNamed_wellFormed {r : Repository} (h : WellFormed r) {target : String} {branchOnly : Bool} {o : Outcome}
    (ho : checkoutNamed r target branchOnly = .ok o) : WellFormed o.state := by
  rcases checkoutNamed_effect ho with ⟨-, hstate⟩ | ⟨id, -, -, hstate⟩ | ⟨-, -, ho⟩
  · rw [hstate]
    exact h
  · rw [hstate]
    exact (h.attach target).settleEdits
  · exact checkoutDetached_wellFormed h ho

theorem checkout_wellFormed {r : Repository} (h : WellFormed r) {target : String} {mode : CheckoutMode} {o : Outcome}
    (ho : checkout r target mode = .ok o) : WellFormed o.state := by
  rcases (checkout_effect ho).2 with ⟨start, force, -, ho⟩ | ⟨-, ho⟩ | ⟨-, ho⟩ | ⟨-, ho⟩
  · rcases (checkoutNew_effect ho).2 with ⟨id, hid, -, hstate⟩ | ⟨-, -, hstate⟩
    · rw [hstate]
      exact ((h.insertBranch target (startPoint_stored h hid)).attach target).settleEdits
    · rw [hstate]
      exact h.attach target
  · exact checkoutDetached_wellFormed h ho
  · exact checkoutNamed_wellFormed h ho
  · exact checkoutNamed_wellFormed h ho

theorem trueMerge_wellFormed {r : Repository} (h : WellFormed r) {source : String} {ours theirs : CommitId}
    {commit : Bool} {message : Option String} {o : Outcome} (hours : r.headId = some ours)
    (htheirs : r.commits.contains theirs = true) (ho : trueMerge r source ours theirs commit message = .ok o)
    (hdistinct : DistinctCommitIds r o.state) : WellFormed o.state := by
  obtain ⟨base, merged, -, hmerged, -, ⟨-, hstate⟩ | ⟨-, hstate⟩⟩ := trueMerge_effect ho
  · rw [hstate] at hdistinct ⊢
    refine WellFormed.settleEdits (h.addCommit rfl (Nat.le_refl 2) (fun p hp => ?_) (fun path blob hb => ?_)
      (fun d hd => h.eq_of_distinct hdistinct rfl ?_ hd))
    · rcases List.mem_cons.1 hp with rfl | hp
      · exact h.head_stored hours
      · rw [List.mem_singleton.1 hp]
        exact htheirs
    · exact h.merged_stored hmerged hb
    · exact get?_addCommit r (mergeCommit r source ours theirs message merged)
  · have hedits := editsOnly_stagePaths merged (changedPaths (r.treeOf (some ours)) merged) r
    rw [hstate]
    refine (h.editsOnly hedits).setMergeHead (fun id hid => ?_)
    cases hid
    rw [hedits.commits]
    exact htheirs

theorem merge_wellFormed {r : Repository} (h : WellFormed r) {source : String} {ff : FastForward} {commit : Bool}
    {message : Option String} {o : Outcome} (ho : merge r source ff commit message = .ok o)
    (hdistinct : DistinctCommitIds r o.state) : WellFormed o.state := by
  obtain ⟨-, -, theirs, htheirs, hcases⟩ := merge_effect ho
  have hstored := h.resolve_stored htheirs
  rcases hcases with ⟨-, -, hstate⟩ | ⟨ours, hours, ⟨-, hstate⟩ | ⟨-, -, -, -, hstate⟩ | ⟨-, -, -, ho⟩⟩
  · rw [hstate]
    exact (h.moveHead hstored).settleEdits
  · rw [hstate]
    exact h
  · rw [hstate]
    exact (h.moveHead hstored).settleEdits
  · exact trueMerge_wellFormed h hours hstored ho hdistinct

theorem resetHead_wellFormed {r : Repository} (h : WellFormed r) {id : Option CommitId}
    (hid : ∀ id', id = some id' → r.commits.contains id' = true) : WellFormed (resetHead r id) := by
  cases id with
  | none => exact h.endMerge
  | some id => exact h.endMerge.moveHead (hid id rfl)

theorem reset_wellFormed {r : Repository} (h : WellFormed r) {target : Option String} {mode : ResetMode} {o : Outcome}
    (ho : reset r target mode = .ok o) : WellFormed o.state := by
  obtain ⟨-, rfl⟩ := reset_effect ho
  have hmoved : WellFormed (resetHead r (startPoint r target)) :=
    resetHead_wellFormed h (fun id hid => startPoint_stored h hid)
  exact hmoved.editsOnly (editsOnly_resetOutcome _ _ mode)

/-- **Operations keep repositories well-formed**, as long as a new commit's identifier belongs to no other commit. -/
theorem step_wellFormed {r : Repository} (h : WellFormed r) {op : Operation} {o : Outcome} (hstep : step r op = .ok o)
    (hdistinct : DistinctCommitIds r o.state) : WellFormed o.state := by
  cases step_effect hstep with
  | edits hedits => exact h.editsOnly hedits
  | init initialBranch ho =>
    rcases init_effect r initialBranch with hstate | ⟨name, -, -, -, hstate⟩
    · rw [ho, hstate]
      exact h
    · rw [ho, hstate]
      exact h.attach name
  | commit args ho => exact commit_wellFormed h ho hdistinct
  | branch op ho => exact branch_wellFormed h ho
  | checkout target mode ho => exact checkout_wellFormed h ho
  | merge source ff commit message ho => exact merge_wellFormed h ho hdistinct
  | abort ho =>
    obtain ⟨-, hstate⟩ := abortMerge_effect ho
    rw [hstate]
    exact (h.editsOnly (editsOnly_dropStaged r)).endMerge
  | reset target mode ho => exact reset_wellFormed h ho

end RepoTutor.Transition
