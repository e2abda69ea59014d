/-
What is stored stays stored.

An operation adds at most one commit, and a commit that is there already is kept as it is, as long as the new one does not
get the identifier of a commit with other contents (`apply_commits_extend`). File contents need no such premise, because a
content is stored only under an identifier that has none yet (`step_blobs_extend`).
-/
import RepoTutor.Proofs.Transition.History

namespace RepoTutor.Transition

open Command Repo

/-- a commit that is added does not displace another one -/
theorem AddsCommit.extends {r r' : Repository} {c : Commit} (hadds : AddsCommit r r' c) (hw : WellFormed r)
    (hw' : WellFormed r') (hdistinct : DistinctCommitIds r r') : Table.Extends r.commits r'.commits := by
  intro id d hd
  rw [hadds.commits, Table.get?_insert]
  split
  · rename_i hid
    subst hid
    have hc := hadds.get?_id
    rw [hw.eq_of_distinct hdistinct (hw'.commit c.id c hc).content hc hd]
  · exact hd

theorem apply_commits_extend {r : Repository} (hw : WellFormed r) {op : Operation} {o : Outcome}
    (ho : apply r op = .ok o) (hdistinct : DistinctCommitIds r o.state) :
    Table.Extends r.commits o.state.commits := by
  rcases step_history (apply_eq_ok.1 ho).1 with hsame | ⟨c, hadds⟩
  · rw [hsame.commits]
    exact .refl _
  · exact hadds.extends hw (apply_wellFormed hw ho) hdistinct

theorem merge_blobs {r : Repository} {source : String} {ff : FastForward} {commit : Bool} {message : Option String}
    {o : Outcome} (ho : merge r source ff commit message = .ok o) : o.state.blobs = r.blobs := by
  obtain ⟨-, -, theirs, -, hcases⟩ := merge_effect ho
  have hmoved : (r.moveHead theirs).settleEdits.blobs = r.blobs := (Repoints.moveHead r theirs).settleEdits.blobs
  rcases hcases with ⟨-, -, hstate⟩ | ⟨ours, -, ⟨-, hstate⟩ | ⟨-, -, -, -, hstate⟩ | ⟨-, -, -, ho⟩⟩
  · rw [hstate, hmoved]
  · rw [hstate]
  · rw [hstate, hmoved]
  · obtain ⟨base, merged, -, -, -, ⟨-, hstate⟩ | ⟨-, hstate⟩⟩ := trueMerge_effect ho
    · rw [hstate]
      exact (Repoints.moveHead _ _).settleEdits.blobs
    · rw [hstate]
      exact (editsOnly_stagePaths merged _ r).blobs

theorem step_blobs_extend {r : Repository} {op : Operation} {o : Outcome} (ho : step r op = .ok o) :
    Table.Extends r.blobs o.state.blobs := by
  have hsame : o.state.blobs = r.blobs → Table.Extends r.blobs o.state.blobs := fun h => h ▸ .refl _
  cases step_effect ho with
  | edits h => exact hsame h.blobs
  | init initialBranch h => exact hsame (h ▸ (init_repoints r initialBranch).blobs)
  | commit args h =>
    obtain ⟨d, -, -, hstate⟩ := commit_effect h
    have hblobs : o.state.blobs = (stagedFor r args).storeStaged.blobs := by
      rw [hstate]
      exact (Repoints.moveHead _ _).blobs
    rw [hblobs, ← (editsOnly_stagedFor r args).blobs]
    exact Repository.storeStaged_extends (stagedFor r args)
  | branch op h => exact hsame (branch_repoints h).blobs
  | checkout target mode h => exact hsame (checkout_repoints h).blobs
  | merge source ff commit message h => exact hsame (merge_blobs h)
  | abort h =>
    refine hsame ?_
    rw [(abortMerge_effect h).2]
    rfl
  | reset target mode h =>
    obtain ⟨-, rfl⟩ := reset_effect h
    exact hsame ((editsOnly_resetOutcome _ _ mode).blobs.trans (resetHead_repoints r _).blobs)

end RepoTutor.Transition
