/-
Operations that leave the learner's files as they are.

Setup, branches, the stage and the history may change under files that nobody touches: a commit takes the staged
contents over into HEAD (`commit_fileContent`), and a soft or mixed reset keeps as edits what the commits that it leaves
behind had changed (`reset_fileContent`). None of the operations in `Operation.keepsFiles` shows a path with another
content afterwards (`apply_fileContent`).
-/
import RepoTutor.Proofs.Transition.Contents
import RepoTutor.Proofs.Transition.Status

namespace RepoTutor.Command

/-- operations on the stage, the history and the branches that are not meant to change any file -/
def Operation.keepsFiles : Operation → Bool
  | .init _ => true
  | .add _ all => all
  | .restore _ staged => staged
  | .commit _ => true
  | .branch _ => true
  | .reset _ mode => mode ≠ .hard
  | .log _ _ _ => true
  | .status => true
  | _ => false

end RepoTutor.Command

namespace RepoTutor.Transition

open Command Repo

/-! ## Commit -/

theorem draft_base {r : Repository} {args : CommitArgs} {d : Draft}
    (hd : (if args.amend then amendDraft r args else freshDraft r args) = .ok d) : d.base = r.headTree := by
  split at hd
  · obtain ⟨c, hc, rfl⟩ := amendDraft_effect hd
    rw [Repository.headCommit] at hc
    rw [Repository.headTree, Repository.treeOf, hc]
  · obtain ⟨-, message, -, rfl⟩ := freshDraft_effect hd
    rfl

/-- the staged edits have been committed and the others are left -/
theorem fileContent_of_takenOver {r next : Repository} {p : Path}
    (hedits : next.edits.get? p = (r.edits.get? p).filter (fun e => !e.staged))
    (hcommitted : next.committedContent p =
      match (r.edits.get? p).filter Edit.staged with
      | some e => e.content
      | none => r.committedContent p) : next.fileContent p = r.fileContent p := by
  cases hedit : r.edits.get? p with
  | none =>
    rw [hedit, Option.filter_none] at hedits hcommitted
    rw [Repository.fileContent_of_noEdit hedits, Repository.fileContent_of_noEdit hedit]
    exact hcommitted
  | some e =>
    rw [hedit, Option.filter_some] at hedits hcommitted
    rw [Repository.fileContent_of_edit hedit]
    cases hstaged : e.staged with
    | true =>
      rw [hstaged] at hedits hcommitted
      exact (Repository.fileContent_of_noEdit hedits).trans hcommitted
    | false =>
      rw [hstaged] at hedits
      exact Repository.fileContent_of_edit hedits

/-- committing drops the staged edits -/
theorem get?_dropStaged_addCommit (r : Repository) (d : Draft) (p : Path) :
    (addCommit r.storeStaged (d.commitIn r)).dropStaged.edits.get? p = (r.edits.get? p).filter (fun e => !e.staged) := by
  rw [Repository.get?_dropStaged, addCommit_edits, Repository.storeStaged_edits]

theorem committed_fileContent {r : Repository} (hw : WellFormed r) (hdistinct : DistinctBlobIds r) {d : Draft}
    (hbase : d.base = r.headTree) (p : Path) : (committed r d).fileContent p = r.fileContent p := by
  have hcommitted := committedContent_committed hw hdistinct hbase p
  rw [committed, Repository.committedContent_editsOnly (editsOnly_settleEdits _)] at hcommitted
  rw [committed, Repository.fileContent_settleEdits]
  exact fileContent_of_takenOver (get?_dropStaged_addCommit r d p) hcommitted

theorem commit_fileContent {r : Repository} (hw : WellFormed r) (hdistinct : DistinctBlobIds r) {args : CommitArgs}
    {o : Outcome} (ho : commit r args = .ok o) (p : Path) : o.state.fileContent p = r.fileContent p := by
  obtain ⟨d, hd, -, hstate⟩ := commit_effect ho
  have hstaged : (stagedFor r args).fileContent p = r.fileContent p ∧ DistinctBlobIds (stagedFor r args) := by
    unfold stagedFor
    split
    · exact ⟨Repository.fileContent_markStaged r _ _ p, hdistinct.markStaged _ _⟩
    · exact ⟨rfl, hdistinct⟩
  rw [hstate, committed_fileContent (hw.editsOnly (editsOnly_stagedFor r args)) hstaged.2 (draft_base hd), hstaged.1]

/-! ## Reset -/

theorem resetHead_edits (r : Repository) (id : Option CommitId) : (resetHead r id).edits = r.edits := by
  cases id with
  | none => rfl
  | some id => exact moveHead_edits _ id

/-- where HEAD's old files are kept, every path is seen as it was -/
theorem keptContent_headTree {r moved : Repository} (hblobs : moved.blobs = r.blobs) {p : Path}
    (hedit : (moved.edits.get? p).map Edit.content = (r.edits.get? p).map Edit.content) :
    Repository.keptContent r.headTree moved p = r.fileContent p := by
  unfold Repository.keptContent
  cases h : r.edits.get? p with
  | none =>
    rw [h, Option.map_none, Option.map_eq_none_iff] at hedit
    rw [hedit, Repository.fileContent_of_noEdit h]
    exact Repository.contentIn_congr hblobs _ _
  | some e =>
    rw [h, Option.map_some, Option.map_eq_some_iff] at hedit
    obtain ⟨e', he', hcontent⟩ := hedit
    rw [he', Repository.fileContent_of_edit h]
    exact hcontent

theorem reset_fileContent {r : Repository} {target : Option String} {mode : ResetMode} (hmode : mode ≠ .hard)
    {o : Outcome} (ho : reset r target mode = .ok o) (p : Path) : o.state.fileContent p = r.fileContent p := by
  obtain ⟨-, rfl⟩ := reset_effect ho
  have hblobs : (resetHead r (startPoint r target)).blobs = r.blobs := (resetHead_repoints r _).blobs
  have hedits := resetHead_edits r (startPoint r target)
  rw [resetOutcome_state]
  cases mode with
  | hard => exact absurd rfl hmode
  | soft =>
    refine (Repository.fileContent_keepFiles _ _ _ p).trans (keptContent_headTree hblobs ?_)
    rw [hedits]
  | mixed =>
    have hmarked := editsOnly_markStaged (resetHead r (startPoint r target)) false (fun _ => true)
    refine (Repository.fileContent_keepFiles _ _ _ p).trans (keptContent_headTree (hmarked.blobs.trans hblobs) ?_)
    rw [Repository.content_markStaged, hedits]

/-! ## All of them -/

/-- HEAD and branches move, the edits stay, and HEAD holds what it held -/
theorem fileContent_pointers {r r' : Repository} (hrepoints : Repoints r r') (hedits : r'.edits = r.edits)
    (hhead : ∀ id, r.headId = some id → r'.headId = some id) (hunborn : r.headId = none → r.commits.isEmpty = true)
    (p : Path) : r'.fileContent p = r.fileContent p :=
  Repository.fileContent_congr (Repository.committedContent_repoints hrepoints hhead hunborn p) (by rw [hedits])

/-- **These operations show every file as it was**, in every repository that a run leads to -/
theorem apply_fileContent {r : Repository} (hr : Reachable r) (hdistinct : DistinctBlobIds r) {op : Operation}
    (hop : op.keepsFiles = true) {o : Outcome} (ho : apply r op = .ok o) (p : Path) :
    o.state.fileContent p = r.fileContent p := by
  obtain ⟨hstep, -⟩ := apply_eq_ok.1 ho
  cases op with
  | init initialBranch =>
    cases hstep
    rcases init_effect r initialBranch with hstate | ⟨name, -, hcommits, -, hstate⟩
    · rw [hstate]
    · rw [hstate]
      refine fileContent_pointers (.of_pointers r (.attached name) r.branches) rfl (fun id hid => ?_)
        hr.noCommits_of_unborn p
      rw [hr.wellFormed.unborn_of_noCommits hcommits] at hid
      cases hid
  | add pathspecs all =>
    have hall : all = true := hop
    subst hall
    cases hstep
    exact Repository.fileContent_markStaged r _ _ p
  | restore paths staged =>
    have hstaged : staged = true := hop
    subst hstaged
    obtain ⟨-, -, hstep⟩ := Except.bind_eq_ok.1 hstep
    cases hstep
    exact Repository.fileContent_markStaged r _ _ p
  | commit args => exact commit_fileContent hr.wellFormed hdistinct hstep p
  | branch op =>
    have hedits : o.state.edits = r.edits := by rw [branch_pointers hstep]
    exact fileContent_pointers (branch_repoints hstep) hedits (fun _ hid => branch_headId hstep hid)
      hr.noCommits_of_unborn p
  | reset target mode => exact reset_fileContent (by simpa [Operation.keepsFiles] using hop) hstep p
  | log target limit oneline => rw [log_effect hstep]
  | status =>
    cases hstep
    rfl
  | _ => simp [Operation.keepsFiles] at hop

/-- both files are staged -/
def stagedDrafts : Repository := drafted.markStaged true (fun _ => true)

theorem stagedDrafts_reachable : Reachable stagedDrafts := by
  have hadd : step drafted (.add [] true) = .ok ⟨stagedDrafts, _⟩ := rfl
  exact .step drafted_reachable hadd
    (drafted_reachable.wellFormed.distinct_of_same (editsOnly_markStaged drafted _ _).commits)

/-- the first commit takes both files over and shows them as before -/
theorem commit_shows_drafts :
    Reachable stagedDrafts ∧ DistinctBlobIds stagedDrafts ∧
      ∃ o, apply stagedDrafts (.commit { message := some "drafts" }) = .ok o ∧ o.state.fileContent "a" = some "" := by
  have hcontents : stagedDrafts.contents = ["", ""] := by decide +kernel
  have hdistinct : DistinctBlobIds stagedDrafts := by
    intro a ha b hb _
    rw [hcontents] at ha hb
    simp only [List.mem_cons, List.not_mem_nil, or_false, or_self] at ha hb
    rw [ha, hb]
  obtain ⟨o, ho⟩ : ∃ o, step stagedDrafts (.commit { message := some "drafts" }) = .ok o := ⟨_, rfl⟩
  -- the first commit cannot meet another one
  have hnew : DistinctCommitIds stagedDrafts o.state := by
    obtain ⟨d, -, -, hstate⟩ := commit_effect ho
    rw [hstate]
    exact stagedDrafts_reachable.wellFormed.distinct_of_insert rfl (committed_commits _ d) rfl
  have happly := (apply_eq_step stagedDrafts_reachable.wellFormed
    (fun o' ho' => Except.ok.inj (ho'.symm.trans ho) ▸ hnew)).trans ho
  refine ⟨stagedDrafts_reachable, hdistinct, o, happly, ?_⟩
  rw [apply_fileContent stagedDrafts_reachable hdistinct rfl happly]
  decide +kernel

end RepoTutor.Transition
