/-
Histories of empty commits.

What a history looks like does not depend on files, so the shortest ones are made of commits without files. A branch gets
such a commit whatever it had before (`step_emptyCommit`), and repositories with a single commit (`lone`) are the
smallest that operations lead to. With a second commit, a branch can lag behind (`lagging`).
-/
import RepoTutor.Proofs.Hash.Blocks
import RepoTutor.Proofs.Transition.Application

namespace RepoTutor.Transition

open Command Repo

/-- an empty commit is made on any branch, if no edits and no merge are pending -/
theorem step_emptyCommit {r : Repository} (name : BranchName) (hhead : r.head = .attached name)
    (hedits : r.edits = .empty) (hmerge : r.mergeHead = none) {message : String} {c : Commit}
    (hc : Commit.make r.headId.toList defaultAuthor (tick r.clock) message r.headTree = c) :
    ∃ o, step r (.commit { message := some message, allowEmpty := true }) = .ok o ∧ o.state =
      { r with commits := r.commits.insert c.id c, branches := r.branches.insert name c.id, clock := c.timestamp } := by
  obtain ⟨commits, blobs, branches, head, edits, mergeHead, clock⟩ := r
  simp only at hhead hedits hmerge
  subst hhead hedits hmerge hc
  refine ⟨_, rfl, ?_⟩
  simp [say, Repository.headId, Repository.moveHead, addCommit, Repository.storeStaged, Repository.stagedEdits,
    Repository.settleEdits, Repository.dropStaged, Table.filter, Table.empty, Repository.stagedTree,
    Repository.headTree, Repository.treeOf]

/-- a first commit makes the branch that HEAD follows, whatever its name -/
theorem apply_firstCommit (branch : BranchName) (message : String) {c : Commit}
    (hc : Commit.make [] defaultAuthor 1 message .empty = c) :
    ∃ o, apply (.new branch) (.commit { message := some message, allowEmpty := true }) = .ok o
      ∧ DistinctCommitIds (.new branch) o.state
      ∧ o.state = { Repository.new branch with
          commits := Table.empty.insert c.id c
          branches := Table.empty.insert branch c.id
          clock := c.timestamp } := by
  have hnew := Repository.new_wellFormed branch
  have hmade : Commit.make (Repository.new branch).headId.toList defaultAuthor (tick (Repository.new branch).clock) message
      (Repository.new branch).headTree = c := hc
  obtain ⟨o, ho, hstate⟩ := step_emptyCommit branch rfl rfl rfl hmade
  have hdistinct : DistinctCommitIds (.new branch) o.state :=
    hnew.distinct_of_insert (c := c) (by rw [← hc]; rfl) (by rw [hstate]) rfl
  exact ⟨o, apply_of_step hnew ho hdistinct, hdistinct, hstate⟩

/-- another branch is checked out, if no edits and no merge are pending -/
theorem step_checkoutBranch {r : Repository} {name : BranchName} {id : CommitId} (hother : r.currentBranch ≠ some name)
    (hid : r.branches.get? name = some id) (hedits : r.edits = .empty) (hmerge : r.mergeHead = none) :
    ∃ o, step r (.checkout name .any) = .ok o ∧ o.state = { r with head := .attached name } := by
  have hover : r.overwritten (r.treeOf (some id)) = [] :=
    overwritten_eq_nil_iff.2 (fun p hp => by simp [hedits, Table.keys, Table.empty] at hp)
  obtain ⟨o, ho, hstate⟩ := checkout_branch hmerge hother hid hover
  refine ⟨o, ho, hstate.trans ?_⟩
  simp [Repository.settleEdits, hedits, Table.filter, Table.empty]

/-! ## A single commit -/

/-- one commit on the main branch -/
def lone (c : Commit) : Repository :=
  { Repository.new "main" with
    commits := Table.empty.insert c.id c
    branches := Table.empty.insert "main" c.id
    clock := c.timestamp }

theorem lone_wellFormed {c : Commit} (hid : c.computedId = c.id) (hparents : c.parents = []) (htree : c.tree = .empty) :
    WellFormed (lone c) := by
  have hcommit := (Repository.new_wellFormed "main").insertCommit hid (by simp [hparents]) (by simp [hparents])
    (by simp [htree]) (fun d hd => by simp [Repository.new] at hd)
  have hbranch := hcommit.insertBranch "main" ((Table.contains_insert _ _ _ _).2 (Or.inl rfl))
  exact hbranch.repoint rfl rfl hbranch.branch hbranch.head hbranch.mergeHead

theorem parentsOf_lone {c : Commit} (hparents : c.parents = []) (x : CommitId) : (lone c).parentsOf x = [] := by
  rw [List.eq_nil_iff_forall_not_mem]
  intro p hp
  obtain ⟨d, hd, hp⟩ := Repository.isParent_iff.1 hp
  simp only [lone, Table.get?_insert] at hd
  split at hd
  · cases hd
    simp [hparents] at hp
  · simp at hd

theorem lone_timelyRun (message : String) : TimelyRun (lone (.make [] defaultAuthor 1 message .empty)) := by
  obtain ⟨o, ho, hdistinct, hstate⟩ := apply_firstCommit "main" message rfl
  have hlone := TimelyRun.apply (.new "main") (by decide) ho hdistinct
  rw [hstate] at hlone
  exact hlone

theorem lone_reachable (message : String) : Reachable (lone (.make [] defaultAuthor 1 message .empty)) :=
  (lone_timelyRun message).cleanRun.reachable

/-! ## A branch that lags behind -/

def olderCommit : Commit := .make [] defaultAuthor 1 "first" .empty

def newerCommit : Commit := .make [olderCommit.id] defaultAuthor 2 "second" .empty

theorem olderCommit_id : olderCommit.id = "4e639e777a31a465817201d62fa04f86659ee4a91dcc6e9cb5d946d41e44751c" := by
  rw [olderCommit, Commit.make_id]
  decide +kernel

theorem newerCommit_id : newerCommit.id = "d350cda1b2546b736d5da225d608ed7064a8fe94b3dd063809904a193b5fdc32" := by
  rw [newerCommit, Commit.make_id, olderCommit_id]
  decide +kernel

theorem olderCommit_ne : olderCommit.id ≠ newerCommit.id := by
  rw [olderCommit_id, newerCommit_id]
  decide

/-- two branches at one commit -/
def branched : Repository :=
  { lone olderCommit with branches := (lone olderCommit).branches.insert "old" olderCommit.id }

/-- one of the branches has got another commit -/
def advanced : Repository :=
  { branched with
    commits := branched.commits.insert newerCommit.id newerCommit
    branches := branched.branches.insert "main" newerCommit.id
    clock := 2 }

/-- HEAD on the branch that lags behind -/
def lagging : Repository := { advanced with head := .attached "old" }

theorem branched_timelyRun : TimelyRun branched := by
  have hfirst : TimelyRun (lone olderCommit) := lone_timelyRun "first"
  have hstep : step (lone olderCommit) (.branch (.create "old" none)) = .ok (silently branched) := rfl
  exact hfirst.step (by decide) hstep (hfirst.cleanRun.reachable.wellFormed.distinct_of_same rfl)

theorem branched_cleanRun : CleanRun branched := branched_timelyRun.cleanRun

theorem branched_headId : branched.headId = some olderCommit.id := by
  simp [Repository.headId, branched, lone, Repository.new]

theorem branched_headTree : branched.headTree = .empty := by
  have hstored : branched.commits.get? olderCommit.id = some olderCommit := by simp [branched, lone]
  rw [Repository.headTree, Repository.treeOf, branched_headId, Option.bind_some, hstored]
  rfl

theorem advanced_timelyRun : TimelyRun advanced := by
  have hmade : Commit.make branched.headId.toList defaultAuthor (tick branched.clock) "second" branched.headTree
      = newerCommit := by
    rw [branched_headId, branched_headTree]
    rfl
  obtain ⟨o, ho, hstate⟩ := step_emptyCommit "main" rfl rfl rfl hmade
  have hadvanced := branched_timelyRun.step (by decide) ho
    (branched_cleanRun.reachable.wellFormed.distinct_of_insert (c := newerCommit) rfl (by rw [hstate])
      (by simp [branched, lone, olderCommit_ne]))
  rw [hstate] at hadvanced
  exact hadvanced

theorem advanced_cleanRun : CleanRun advanced := advanced_timelyRun.cleanRun

theorem lagging_cleanRun : CleanRun lagging := by
  have hold : advanced.branches.get? "old" = some olderCommit.id := by simp [advanced, branched]
  have hother : advanced.currentBranch ≠ some "old" := by
    simp [Repository.currentBranch, advanced, branched, lone, Repository.new]
  obtain ⟨o, ho, hstate⟩ := step_checkoutBranch hother hold rfl rfl
  have hlagging := advanced_cleanRun.step_same ho (by rw [hstate])
  rw [hstate] at hlagging
  exact hlagging

theorem lagging_reachable : Reachable lagging := lagging_cleanRun.reachable

/-- all commits are without files -/
theorem lagging_treeOf (id : Option CommitId) : lagging.treeOf id = .empty := by
  unfold Repository.treeOf
  split
  · rename_i c hc
    obtain ⟨id', -, hc⟩ := Option.bind_eq_some_iff.1 hc
    simp only [lagging, advanced, branched, lone, Table.get?_insert] at hc
    split at hc
    · cases hc
      rfl
    · split at hc
      · cases hc
        rfl
      · simp at hc
  · rfl

end RepoTutor.Transition
