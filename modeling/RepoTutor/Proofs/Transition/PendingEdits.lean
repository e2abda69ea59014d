/-
A pending edit always differs from what HEAD holds.

`Settled` says so of every edit. Recording a content keeps it, since an edit equal to the committed content is dropped at
once (`Settled.setEdit`); operations that move HEAD settle the edits afterwards, and the others leave the committed
contents alone. So it holds along every run (`Reachable.settled`).

The one operation that could let HEAD stand for other files without settling is a branch that comes to be under an unborn
HEAD; along a run an unborn HEAD means that there is no commit to begin a branch at.
-/
import RepoTutor.Proofs.Transition.FileView
import RepoTutor.Proofs.Transition.History

namespace RepoTutor.Transition

open Command Repo

/-- every pending edit differs from what HEAD holds -/
def Settled (r : Repository) : Prop := ∀ p e, r.edits.get? p = some e → e.content ≠ r.committedContent p

namespace Settled

variable {r r' : Repository}

/-- no edit of another content, and the same committed contents -/
theorem mono (h : Settled r) (hcommitted : ∀ p, r'.committedContent p = r.committedContent p)
    (hedits : ∀ p e, r'.edits.get? p = some e → ∃ e', r.edits.get? p = some e' ∧ e'.content = e.content) :
    Settled r' := by
  intro p e he
  obtain ⟨e', he', hcontent⟩ := hedits p e he
  rw [hcommitted, ← hcontent]
  exact h p e' he'

theorem of_settleEdits (r : Repository) : Settled r.settleEdits := by
  intro p e he
  rw [Repository.get?_settleEdits, Option.filter_eq_some_iff, bne_iff_ne] at he
  rw [Repository.committedContent_editsOnly (editsOnly_settleEdits r)]
  exact he.2.symm

theorem of_noEdits (h : r.edits = .empty) : Settled r := by
  intro p e he
  rw [h, Table.get?_empty] at he
  cases he

theorem setEdit (h : Settled r) (path : Path) (content : Option String) (staged : Bool) :
    Settled (r.setEdit path content staged) := by
  intro p e he
  rw [Repository.committedContent_editsOnly (editsOnly_setEdit r path content staged)]
  rw [Repository.get?_setEdit] at he
  split at he
  · rename_i hp
    subst hp
    split at he
    · cases he
    · rename_i hne
      cases he
      exact Ne.symm hne
  · exact h p e he

/-- fewer edits -/
theorem filter (h : Settled r) (keep : Path → Edit → Bool) : Settled { r with edits := r.edits.filter keep } := by
  refine h.mono (fun p => rfl) (fun p e he => ?_)
  rw [Table.get?_filter, Option.filter_eq_some_iff] at he
  exact ⟨e, he.1, rfl⟩

theorem markStaged (h : Settled r) (staged : Bool) (which : Path → Bool) : Settled (r.markStaged staged which) := by
  refine h.mono (Repository.committedContent_editsOnly (editsOnly_markStaged r staged which)) (fun p e he => ?_)
  have hcontent := Repository.content_markStaged r staged which p
  rw [he, Option.map_some, eq_comm, Option.map_eq_some_iff] at hcontent
  exact hcontent

theorem foldl {α : Type} {f : Repository → α → Repository} (hf : ∀ r a, Settled r → Settled (f r a)) (l : List α)
    (h : Settled r) : Settled (l.foldl f r) := by
  induction l generalizing r with
  | nil => exact h
  | cons a l ih => exact ih (hf r a h)

theorem removePath (h : Settled r) (path : Path) : Settled (removePath r path) := by
  unfold Transition.removePath
  split
  · exact h.setEdit path none true
  · exact h.filter _

theorem discardPath (h : Settled r) (path : Path) : Settled (discardPath r path) := by
  unfold Transition.discardPath
  split
  · split
    · exact h
    · exact h.filter _
  · exact h

theorem touchPath (h : Settled r) (path : Path) : Settled (touchPath r path) := by
  unfold Transition.touchPath
  split
  · exact h.setEdit path _ false
  · exact h

/-- HEAD and branches move, the edits stay, and HEAD holds what it held: it is at its commit, or there are no commits -/
theorem pointers (h : Settled r) (hrepoints : Repoints r r') (hedits : r'.edits = r.edits)
    (hhead : ∀ id, r.headId = some id → r'.headId = some id) (hunborn : r.headId = none → r.commits.isEmpty = true) :
    Settled r' := by
  refine h.mono (Repository.committedContent_repoints hrepoints hhead hunborn) (fun p e he => ⟨e, ?_, rfl⟩)
  rw [← hedits]
  exact he

/-- there is nothing to drop -/
theorem settleEdits_eq (h : Settled r) : r.settleEdits = r := by
  refine (EditsOnly.refl r).eq_of_edits (editsOnly_settleEdits r) (fun p => ?_)
  rw [Repository.get?_settleEdits]
  cases hedit : r.edits.get? p with
  | none => rfl
  | some e =>
    have hne : r.committedContent p ≠ e.content := (h p e hedit).symm
    rw [Option.filter_some, if_pos (bne_iff_ne.2 hne)]

/-- HEAD moves to other files, and no edit is in the way -/
theorem of_overwritten (h : Settled r) (hedits : r'.edits = r.edits) (hblobs : r'.blobs = r.blobs)
    (hover : r.overwritten r'.headTree = []) : Settled r' := by
  intro p e he
  rw [hedits] at he
  have hfile : r.headTree.get? p = r'.headTree.get? p := overwritten_eq_nil_iff.1 hover p (Table.mem_keys.2 ⟨e, he⟩)
  have hcommitted : r'.committedContent p = r.committedContent p := by
    rw [Repository.committedContent, Repository.committedContent, Repository.contentIn_congr hblobs,
      Repository.contentIn, Repository.contentIn, hfile]
  rw [hcommitted]
  exact h p e he

end Settled

/-! ## Operations -/

theorem add_settled {r : Repository} (h : Settled r) {pathspecs : List String} {all : Bool} {o : Outcome}
    (ho : add r pathspecs all = .ok o) : Settled o.state := by
  unfold add at ho
  split at ho
  · cases ho
    exact h.markStaged true _
  · obtain ⟨s, -, ho⟩ := Except.bind_eq_ok.1 ho
    cases ho
    exact (h.markStaged true _).foldl (fun r path hr => hr.setEdit path _ true) _

theorem remove_settled {r : Repository} (h : Settled r) {paths : List Path} {o : Outcome}
    (ho : remove r paths = .ok o) : Settled o.state := by
  obtain ⟨-, -, ho⟩ := Except.bind_eq_ok.1 ho
  cases ho
  exact h.foldl (fun r path hr => hr.removePath path) paths

theorem restore_settled {r : Repository} (h : Settled r) {paths : List Path} {staged : Bool} {o : Outcome}
    (ho : restore r paths staged = .ok o) : Settled o.state := by
  obtain ⟨-, -, ho⟩ := Except.bind_eq_ok.1 ho
  split at ho
  · cases ho
    exact h.markStaged false _
  · cases ho
    exact h.foldl (fun r path hr => hr.discardPath path) paths

theorem deleteFiles_settled {r : Repository} (h : Settled r) {paths : List Path} {o : Outcome}
    (ho : deleteFiles r paths = .ok o) : Settled o.state := by
  unfold deleteFiles at ho
  split at ho
  · cases ho
  · cases ho
    exact h.foldl (fun r path hr => hr.setEdit path none false) paths

theorem commit_settled {r : Repository} {args : CommitArgs} {o : Outcome} (ho : commit r args = .ok o) :
    Settled o.state := by
  obtain ⟨d, -, -, hstate⟩ := commit_effect ho
  rw [hstate]
  exact .of_settleEdits _

theorem checkout_settled {r : Repository} (hunborn : r.headId = none → r.commits.isEmpty = true) (h : Settled r)
    {target : String} {mode : CheckoutMode} {o : Outcome} (ho : checkout r target mode = .ok o) : Settled o.state := by
  rcases checkout_pointers ho with hstate | ⟨next, -, -, hstate⟩ | ⟨hnone, hstate⟩
  · rw [hstate]
    exact h
  · rw [hstate]
    exact .of_settleEdits next
  · rw [hstate]
    exact h.pointers (.of_pointers r _ _) rfl (fun id hid => by rw [hnone] at hid; cases hid) hunborn

theorem merge_settled {r : Repository} (h : Settled r) {source : String} {ff : FastForward} {commit : Bool}
    {message : Option String} {o : Outcome} (ho : merge r source ff commit message = .ok o) : Settled o.state := by
  obtain ⟨-, -, theirs, -, hcases⟩ := merge_effect ho
  rcases hcases with ⟨-, -, hstate⟩ | ⟨ours, -, ⟨-, hstate⟩ | ⟨-, -, -, -, hstate⟩ | ⟨-, -, -, ho⟩⟩
  · rw [hstate]
    exact .of_settleEdits _
  · rw [hstate]
    exact h
  · rw [hstate]
    exact .of_settleEdits _
  · obtain ⟨base, merged, -, -, -, ⟨-, hstate⟩ | ⟨-, hstate⟩⟩ := trueMerge_effect ho
    · rw [hstate]
      exact .of_settleEdits _
    · rw [hstate]
      exact h.foldl (fun r path hr => hr.setEdit path _ true) (changedPaths (r.treeOf (some ours)) merged)

theorem reset_settled {r : Repository} {target : Option String} {mode : ResetMode} {o : Outcome}
    (ho : reset r target mode = .ok o) : Settled o.state := by
  obtain ⟨-, rfl⟩ := reset_effect ho
  rw [resetOutcome_state]
  cases mode with
  | hard => exact .of_noEdits rfl
  | soft => exact .of_settleEdits _
  | mixed => exact .of_settleEdits _

/-- **Operations keep edits settled**, where HEAD is unborn only before the first commit. -/
theorem step_settled {r : Repository} (hw : WellFormed r) (hunborn : r.headId = none → r.commits.isEmpty = true)
    (h : Settled r) {op : Operation} {o : Outcome} (ho : step r op = .ok o) : Settled o.state := by
  cases op with
  | init initialBranch =>
    cases ho
    rcases init_effect r initialBranch with hstate | ⟨name, -, hcommits, -, hstate⟩
    · rw [hstate]
      exact h
    · rw [hstate]
      refine h.pointers (.of_pointers r _ _) rfl (fun id hid => ?_) hunborn
      rw [hw.unborn_of_noCommits hcommits] at hid
      cases hid
  | add pathspecs all => exact add_settled h ho
  | remove paths => exact remove_settled h ho
  | restore paths staged => exact restore_settled h ho
  | commit args => exact commit_settled ho
  | branch op =>
    have hedits : o.state.edits = r.edits := by rw [branch_pointers ho]
    exact h.pointers (branch_repoints ho) hedits (fun _ hid => branch_headId ho hid) hunborn
  | checkout target mode => exact checkout_settled hunborn h ho
  | merge op =>
    cases op with
    | start source ff commit message => exact merge_settled h ho
    | abort =>
      obtain ⟨-, hstate⟩ := abortMerge_effect ho
      rw [hstate]
      exact h.filter _
  | reset target mode => exact reset_settled ho
  | log target limit oneline =>
    rw [log_effect ho]
    exact h
  | status =>
    cases ho
    exact h
  | touch paths =>
    cases ho
    exact h.foldl (fun r path hr => hr.touchPath path) paths
  | writeFile path text append =>
    cases ho
    exact h.setEdit path _ false
  | deleteFile paths => exact deleteFiles_settled h ho

theorem Reachable.settled {r : Repository} (h : Reachable r) : Settled r := by
  induction h with
  | new branch => exact .of_noEdits rfl
  | apply hr ho ih => exact step_settled hr.wellFormed hr.noCommits_of_unborn ih (apply_eq_ok.1 ho).1

end RepoTutor.Transition
