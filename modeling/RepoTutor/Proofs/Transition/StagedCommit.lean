/-
What a commit takes, leaves and tells.

A commit that amends nothing takes the edits that are staged, or that `-a` stages (`takenEdits`), and leaves the others
(`committed_edits`). An edit always differs from what HEAD holds, so the files that the commit changes are exactly the
taken ones (`mem_changedPaths_stagedTree`): this is why it tells the right number of them, and why it is never empty by
accident. The main result, `commit_takes_staged`, says all this of every successful commit of a run.
-/
import RepoTutor.Proofs.Transition.FileFrame
import RepoTutor.Proofs.Transition.PendingMerge

namespace RepoTutor.Transition

open Command Repo

/-! ## Which edits a commit takes -/

/-- whether a commit takes the edit of a path: a staged one, and with `-a` also one of a committed file -/
def takesEdit (r : Repository) (args : CommitArgs) (p : Path) (e : Edit) : Bool :=
  e.staged || (args.all && r.headTree.contains p)

/-- the edits that a commit takes -/
def takenEdits (r : Repository) (args : CommitArgs) : Table Edit := r.edits.filter (takesEdit r args)

/-- staging for a commit marks the edits that it takes -/
theorem get?_stagedFor (r : Repository) (args : CommitArgs) (p : Path) :
    (stagedFor r args).edits.get? p = (r.edits.get? p).map (fun e => { e with staged := takesEdit r args p e }) := by
  unfold stagedFor takesEdit
  cases args.all with
  | false => simp
  | true =>
    rw [if_pos rfl, Repository.get?_markStaged]
    cases r.headTree.contains p <;> simp

theorem filter_stagedFor (r : Repository) (args : CommitArgs) (p : Path) :
    ((stagedFor r args).edits.get? p).filter Edit.staged =
      ((takenEdits r args).get? p).map (fun e => { e with staged := true }) := by
  rw [get?_stagedFor, takenEdits, Table.get?_filter]
  cases r.edits.get? p with
  | none => rfl
  | some e => cases h : takesEdit r args p e <;> simp [Option.filter_some, h]

theorem contains_takenEdits {r : Repository} {args : CommitArgs} {p : Path} :
    (takenEdits r args).contains p = true ↔ ∃ e, (stagedFor r args).edits.get? p = some e ∧ e.staged = true := by
  have hfilter := filter_stagedFor r args p
  rw [Table.contains, ← Option.isSome_map, ← hfilter, Option.isSome_iff_exists]
  simp only [Option.filter_eq_some_iff]

theorem settled_stagedFor {r : Repository} (h : Settled r) (args : CommitArgs) : Settled (stagedFor r args) := by
  unfold stagedFor
  split
  · exact h.markStaged true _
  · exact h

theorem distinctBlobIds_stagedFor {r : Repository} (h : DistinctBlobIds r) (args : CommitArgs) :
    DistinctBlobIds (stagedFor r args) := by
  unfold stagedFor
  split
  · exact h.markStaged true _
  · exact h

theorem hasStaged_iff {r : Repository} : r.hasStaged = true ↔ ∃ p e, r.edits.get? p = some e ∧ e.staged = true := by
  simp only [Repository.hasStaged, Table.any, List.any_eq_true, Prod.exists, Table.get?_eq_some_iff]

/-! ## What becomes of the edits -/

section Committed

variable {r : Repository} (hw : WellFormed r) (hdistinct : DistinctBlobIds r) (hsettled : Settled r)

include hw hdistinct hsettled

/-- the edits that were not staged are left, and no other -/
theorem committed_edits {d : Draft} (hbase : d.base = r.headTree) :
    (committed r d).edits = r.edits.filter (fun _ e => !e.staged) := by
  refine Table.ext_get? (fun p => ?_)
  have hcommitted := committedContent_committed hw hdistinct hbase p
  rw [committed, Repository.committedContent_editsOnly (editsOnly_settleEdits _)] at hcommitted
  rw [committed, Repository.get?_settleEdits, hcommitted, Table.get?_filter]
  refine (congrArg (Option.filter _) (get?_dropStaged_addCommit r d p)).trans ?_
  cases hedit : r.edits.get? p with
  | none => rfl
  | some e =>
    have hdiffers : r.committedContent p ≠ e.content := (hsettled p e hedit).symm
    cases hstaged : e.staged <;> simp [Option.filter_some, hstaged, hdiffers]

/-- the staged edits change their files, since they differ from what HEAD holds -/
theorem mem_changedPaths_stagedTree {p : Path} :
    p ∈ changedPaths r.headTree (r.stagedTree r.headTree) ↔ ∃ e, r.edits.get? p = some e ∧ e.staged = true := by
  rw [mem_changedPaths, Repository.get?_stagedTree]
  cases hedit : (r.edits.get? p).filter Edit.staged with
  | none =>
    refine ⟨fun h => absurd rfl h, fun ⟨e, he, hstaged⟩ => ?_⟩
    rw [he, Option.filter_some, if_pos hstaged] at hedit
    cases hedit
  | some e =>
    obtain ⟨he, hstaged⟩ := Option.filter_eq_some_iff.1 hedit
    have hcommitted : r.headTree.get? p = (r.committedContent p).map blobId :=
      (hw.map_blobId_contentIn (fun blob hblob => hw.tree_blob_stored hblob)).symm
    refine ⟨fun _ => ⟨e, he, hstaged⟩, fun _ hsame => hsettled p e he ?_⟩
    rw [hcommitted] at hsame
    refine (hdistinct.map_inj (fun text htext => ?_) (fun text htext => ?_) hsame).symm
    · obtain ⟨blob, -, hblob⟩ := Option.bind_eq_some_iff.1 htext
      exact Repository.mem_contents.2 (Or.inl ⟨blob, hblob⟩)
    · exact Repository.mem_contents.2 (Or.inr ⟨p, by rw [he, Option.map_some, htext]⟩)

/-- as many files are changed as edits are staged -/
theorem length_changedPaths_stagedTree {staged : Table Edit}
    (hstaged : ∀ p, staged.contains p = true ↔ ∃ e, r.edits.get? p = some e ∧ e.staged = true) :
    (changedPaths r.headTree (r.stagedTree r.headTree)).length = staged.size := by
  have hnodup : (changedPaths r.headTree (r.stagedTree r.headTree)).Nodup := (nodup_ascendingKeys _).filter _
  rw [← Table.length_keys]
  refine List.Perm.length_eq ((List.perm_ext_iff_of_nodup hnodup staged.nodup_keys).2 (fun p => ?_))
  rw [mem_changedPaths_stagedTree hw hdistinct hsettled, ← Table.contains_iff_mem_keys, hstaged]

/-- with a staged edit, the files differ from HEAD's -/
theorem stagedTree_ne_headTree (hstaged : r.hasStaged = true) : r.stagedTree r.headTree ≠ r.headTree := by
  obtain ⟨p, hp⟩ := hasStaged_iff.1 hstaged
  intro hsame
  have hchanged := (mem_changedPaths_stagedTree hw hdistinct hsettled).2 hp
  rw [hsame, mem_changedPaths] at hchanged
  exact hchanged rfl

end Committed

/-! ## Three edits, two of them taken -/

theorem revisedBlob_id : blobId "2\n" = "0cc9a5e0283ea4042fdb86247d76267ce2edf5db082379bb3a0e9f1de2fa9dbe" := by
  rw [show "2\n" = String.ofList ['2', '\n'] from rfl, blobId, digest_ofList]
  decide +kernel

/-- the file that HEAD has is edited, a second one is staged and a third one is not -/
def revising : Repository :=
  { filed with
    edits := ((Table.empty.insert "b" ⟨some "2\n", true⟩).insert "a" ⟨some "2\n", false⟩).insert "c" ⟨some "2\n", false⟩ }

theorem revising_editsOnly : EditsOnly filed revising := .of_edits filed _

theorem filed_headId : filed.headId = some filingCommit.id := by simp [Repository.headId, filed, drafting]

theorem revising_headId : revising.headId = some filingCommit.id := revising_editsOnly.headId.trans filed_headId

theorem filed_headTree : filed.headTree = filingCommit.tree := by
  rw [headTree_of_headId filed_headId, treeOf_congr (show filed.commits = drafting.commits from rfl), drafting_treeOf_filing]

theorem filed_committedContent (p : Path) : filed.committedContent p = if "a" = p then some "1\n" else none := by
  rw [Repository.committedContent, filed_headTree, Repository.contentIn, get?_filingCommit_tree]
  split
  · simp [filed, drafting]
  · rfl

theorem revising_cleanRun : CleanRun revising := by
  have hline : "2" ++ "\n" = "2\n" := rfl
  -- what is committed does not change with the edits
  have hother : ∀ (edits : Table Edit) (p : Path), { filed with edits := edits }.committedContent p ≠ some "2\n" := by
    intro edits p
    rw [Repository.committedContent_editsOnly (.of_edits filed edits), filed_committedContent]
    split <;> simp
  have hsecond := filed_cleanRun.writeLine "b" hline (hother filed.edits "b")
  have hstaged : step { filed with edits := filed.edits.insert "b" ⟨some "2\n", false⟩ } (.add [] true) =
      .ok (silently { filed with edits := Table.empty.insert "b" ⟨some "2\n", true⟩ }) := rfl
  exact ((hsecond.step_same hstaged rfl).writeLine "a" hline (hother _ "a")).writeLine "c" hline (hother _ "c")

theorem revising_distinct : DistinctBlobIds revising := by
  have hne : blobId "1\n" ≠ blobId "2\n" := by
    rw [filedBlob_id, revisedBlob_id]
    decide
  have hcontents : ∀ text ∈ revising.contents, text = "1\n" ∨ text = "2\n" := by
    intro text htext
    rcases Repository.mem_contents.1 htext with ⟨id, hid⟩ | ⟨p, hp⟩
    · simp only [revising, filed, drafting, Table.get?_insert, Table.get?_empty, Option.ite_none_right_eq_some] at hid
      exact Or.inl (Option.some.inj hid.2).symm
    · obtain ⟨e, he, hcontent⟩ := Option.map_eq_some_iff.1 hp
      simp only [revising, Table.get?_insert, Table.get?_empty] at he
      split_ifs at he <;> cases he <;> exact Or.inr (Option.some.inj hcontent).symm
  intro a ha b hb hid
  rcases hcontents a ha with rfl | rfl <;> rcases hcontents b hb with rfl | rfl
  · rfl
  · exact absurd hid hne
  · exact absurd hid.symm hne
  · rfl

/-- the files with the staged edit, and with the edit of the committed file when that is taken as well -/
def revisedTree (all : Bool) : Tree :=
  let staged := filingCommit.tree.insert "b" (blobId "2\n")
  if all then staged.insert "a" (blobId "2\n") else staged

def revisedCommit (all : Bool) : Commit := .make [filingCommit.id] defaultAuthor 3 "third" (revisedTree all)

theorem revisedCommit_id (all : Bool) :
    (revisedCommit all).id = if all then "90452bca2c1bc7693bca5144e51a45f02607acaf314316910d385ac61d21d48d"
      else "bc6bf499a49026569a5ba6fc95883e1963be398c20e31a79e1bdcf9f4f45465a" := by
  rw [revisedCommit, Commit.make_id, revisedTree, filingCommit_id, filingCommit, Commit.make, filedBlob_id, revisedBlob_id]
  cases all with
  | false => decide +kernel
  | true => decide +kernel

/-- a commit of staged edits succeeds when it is given a message -/
theorem commit_succeeds {r : Repository} {message : String} {all : Bool}
    (hstaged : (stagedFor r { message := some message, all := all }).hasStaged = true) :
    ∃ o, commit r { message := some message, all := all } = .ok o := by
  unfold stagedFor at hstaged
  simp [commit, freshDraft, commitMessage, hstaged, bind, Except.bind, pure, Except.pure]

theorem revising_headTree : revising.headTree = filingCommit.tree :=
  revising_editsOnly.headTree.trans filed_headTree

theorem get?_revising_edits (p : Path) :
    revising.edits.get? p =
      if "c" = p ∨ "a" = p then some ⟨some "2\n", false⟩ else if "b" = p then some ⟨some "2\n", true⟩ else none := by
  simp only [revising, Table.get?_insert, Table.get?_empty]
  by_cases hc : "c" = p
  · simp [hc]
  · by_cases ha : "a" = p <;> simp [hc, ha]

/-- the staged edit is taken, and with `-a` that of the committed file as well -/
theorem get?_takenEdits_revising (message : String) (all : Bool) (p : Path) :
    (takenEdits revising { message := some message, all := all }).get? p =
      if "b" = p then some ⟨some "2\n", true⟩
      else if "a" = p ∧ all = true then some ⟨some "2\n", false⟩ else none := by
  have htracked : revising.headTree.contains p = decide ("a" = p) := by
    rw [revising_headTree, Table.contains, get?_filingCommit_tree]
    split <;> simp [*]
  rw [takenEdits, Table.get?_filter, get?_revising_edits]
  by_cases hb : "b" = p
  · subst hb
    simp [takesEdit]
  · by_cases ha : "a" = p
    · subst ha
      simp [takesEdit, htracked, Option.filter_some]
    · by_cases hc : "c" = p
      · subst hc
        simp [takesEdit, htracked]
      · simp [ha, hb, hc]

theorem stagedTree_revising (message : String) (all : Bool) :
    (stagedFor revising { message := some message, all := all }).stagedTree filingCommit.tree = revisedTree all := by
  refine Table.ext_get? (fun p => ?_)
  rw [Repository.get?_stagedTree, filter_stagedFor, get?_takenEdits_revising, revisedTree]
  by_cases hb : "b" = p
  · subst hb
    cases all <;> simp
  · by_cases ha : "a" = p
    · subst ha
      cases all <;> simp
    · cases all <;> simp [ha, hb]

/-- the commit can be made with and without the edit of the committed file -/
theorem revising_commits (all : Bool) :
    ∃ o, apply revising (.commit { message := some "third", all := all }) = .ok o := by
  have hw := revising_cleanRun.reachable.wellFormed
  have hsame := editsOnly_stagedFor revising { message := some "third", all := all }
  have hstaged : (stagedFor revising { message := some "third", all := all }).hasStaged = true := by
    refine hasStaged_iff.2 ⟨"b", ⟨some "2\n", true⟩, ?_, rfl⟩
    rw [get?_stagedFor, get?_revising_edits]
    simp [takesEdit]
  obtain ⟨o, ho⟩ := commit_succeeds hstaged
  refine ⟨o, apply_of_step hw ho ?_⟩
  obtain ⟨d, hd, -, hstate⟩ := commit_effect ho
  obtain ⟨-, message, hmessage, rfl⟩ := freshDraft_effect hd
  cases hmessage
  have hcommits := hstate ▸ committed_commits _ _
  have hcommit : Commit.make [filingCommit.id] defaultAuthor 3 "third"
      ((stagedFor revising { message := some "third", all := all }).stagedTree filingCommit.tree) = revisedCommit all := by
    rw [stagedTree_revising]
    rfl
  rw [hsame.headId, hsame.mergeHead, hsame.headTree, hsame.commits, revising_headId, revising_headTree, Draft.commitIn, hsame.clock]
    at hcommits
  refine hw.distinct_of_insert (c := revisedCommit all) rfl (hcommits.trans (by rw [← hcommit]; rfl)) ?_
  show drafting.commits.get? _ = none
  rw [get?_drafting_commits, revisedCommit_id, filingCommit_id, olderCommit_id]
  cases all <;> decide

/-! ## Commits of a run -/

/-- what a commit is, given the edits that it takes -/
structure CommitsEdits (r : Repository) (taken : Table Edit) (o : Outcome) (c : Commit) : Prop where
  /-- the commit is new, and HEAD is at it -/
  adds : AddsCommit r o.state c
  parents : c.parents = r.headId.toList ++ r.mergeHead.toList
  /-- a path is committed with the content that was taken, or else with what HEAD held before -/
  content : ∀ p, o.state.committedContent p = match taken.get? p with
    | some e => e.content
    | none => r.committedContent p
  /-- the other edits are left -/
  edits : o.state.edits = r.edits.filter (fun p _ => !taken.contains p)
  /-- the second line tells the number of edits that were taken -/
  told : ∃ label, o.output = .message [label, filesChangedLine taken.size]

/-- the first parent of a commit has HEAD's files; without parents there are none -/
theorem treeOf_firstParent {r : Repository} (hr : Reachable r) :
    r.treeOf (r.headId.toList ++ r.mergeHead.toList).head? = r.headTree := by
  cases hhead : r.headId with
  | some id => exact (headTree_of_headId hhead).symm
  | none =>
    have hnone := hr.noCommits_of_unborn hhead
    rw [Repository.headTree_of_noCommits hnone]
    unfold Repository.treeOf
    split
    · rename_i c hc
      obtain ⟨id, -, hc⟩ := Option.bind_eq_some_iff.1 hc
      rw [Table.isEmpty_iff.1 hnone id] at hc
      cases hc
    · rfl

theorem commitOutcome_commitsEdits {r : Repository} (hw : WellFormed r) (hdistinct : DistinctBlobIds r)
    (hsettled : Settled r) {args : CommitArgs} {d : Draft} (hparents : d.parents = r.headId.toList ++ r.mergeHead.toList)
    (hbase : d.base = r.headTree) (hfirst : r.treeOf d.parents.head? = r.headTree) :
    CommitsEdits r (takenEdits r args) (commitOutcome (stagedFor r args) d) (d.commitIn (stagedFor r args)) := by
  have hsame := editsOnly_stagedFor r args
  have hw' := hw.editsOnly hsame
  have hdistinct' := distinctBlobIds_stagedFor hdistinct args
  have hsettled' := settled_stagedFor hsettled args
  have hbase' : d.base = (stagedFor r args).headTree := hbase.trans hsame.headTree.symm
  have hadds := committed_addsCommit (stagedFor r args) d
  refine ⟨⟨hsame.commits ▸ hadds.commits, hadds.headId, hsame.clock ▸ hadds.timestamp, hsame.clock ▸ hadds.clock⟩,
    hparents, fun p => ?content, ?edits, ?told⟩
  case content =>
    refine (committedContent_committed hw' hdistinct' hbase' p).trans ?_
    rw [filter_stagedFor, Repository.committedContent_editsOnly hsame]
    cases (takenEdits r args).get? p <;> rfl
  case edits =>
    refine (committed_edits hw' hdistinct' hsettled' hbase').trans (Table.ext_get? (fun p => ?_))
    rw [Table.get?_filter, Table.get?_filter, get?_stagedFor, Table.contains, takenEdits, Table.get?_filter]
    cases r.edits.get? p with
    | none => rfl
    | some e =>
      cases htakes : takesEdit r args p e with
      | true => simp [Option.filter_some, htakes]
      | false =>
        have hstaged : e.staged = false := (Bool.or_eq_false_iff.1 htakes).1
        simp [Option.filter_some, htakes, ← hstaged]
  case told =>
    have hparent : (stagedFor r args).treeOf d.parents.head? = (stagedFor r args).headTree := by
      rw [treeOf_congr hsame.commits, hsame.headTree, hfirst]
    refine ⟨_, congrArg (fun n => Output.message [_, filesChangedLine n]) ?_⟩
    rw [hparent, hbase']
    exact length_changedPaths_stagedTree hw' hdistinct' hsettled' (fun p => contains_takenEdits)

/-- **What a commit takes, leaves and tells.** Let a commit that amends nothing succeed in a repository of a run. Its
parents are HEAD's commit and the commit of a pending merge, as far as there are such; each path is committed with the
content of its edit if the commit takes the edit, and with what HEAD held otherwise; the edits that it does not take are
left as they are; it tells how many it took; and its files differ from HEAD's, unless an empty commit was allowed or a
merge was pending. -/
theorem commit_takes_staged {r : Repository} (hr : Reachable r) (hdistinct : DistinctBlobIds r) {args : CommitArgs}
    (hamend : args.amend = false) {o : Outcome} (ho : apply r (.commit args) = .ok o) :
    ∃ c, CommitsEdits r (takenEdits r args) o c
      ∧ (args.allowEmpty = false → r.mergeHead = none → c.tree ≠ r.headTree) := by
  have hw := hr.wellFormed
  have hsame := editsOnly_stagedFor r args
  obtain ⟨d, hd, -, rfl⟩ := commit_outcome (apply_eq_ok.1 ho).1
  rw [if_neg (by simp [hamend])] at hd
  obtain ⟨hguard, message, -, rfl⟩ := freshDraft_effect hd
  rw [hsame.headId, hsame.mergeHead, hsame.headTree]
  refine ⟨_, commitOutcome_commitsEdits hw hdistinct hr.settled rfl rfl (treeOf_firstParent hr), fun hempty hmerge => ?_⟩
  have hstaged : (stagedFor r args).hasStaged = true := by
    simpa [hempty, hsame.mergeHead, hmerge] using hguard
  have hne := stagedTree_ne_headTree (hw.editsOnly hsame) (distinctBlobIds_stagedFor hdistinct args)
    (settled_stagedFor hr.settled args) hstaged
  rw [hsame.headTree] at hne
  exact hne

/-- the edits of two files are taken, the untracked one is left -/
theorem untracked_edit_is_left :
    Reachable revising ∧ DistinctBlobIds revising
      ∧ ∃ o, apply revising (.commit { message := some "third", all := true }) = .ok o
        ∧ o.state.committedContent "a" = some "2\n" ∧ o.state.committedContent "c" = none
        ∧ o.state.edits = Table.empty.insert "c" ⟨some "2\n", false⟩
        ∧ ∃ label, o.output = .message [label, " 2 files changed"] := by
  have hreachable := revising_cleanRun.reachable
  obtain ⟨o, ho⟩ := revising_commits true
  obtain ⟨c, hcommits, -⟩ := commit_takes_staged hreachable revising_distinct rfl ho
  have htaken := get?_takenEdits_revising "third" true
  have hsame : takenEdits revising { message := some "third", all := true } =
      (Table.empty.insert "a" ⟨some "2\n", false⟩).insert "b" ⟨some "2\n", true⟩ := by
    refine Table.ext_get? (fun p => ?_)
    simp [htaken]
  refine ⟨hreachable, revising_distinct, o, ho, ?_, ?_, ?_, ?_⟩
  · rw [hcommits.content, htaken]
    simp
  · rw [hcommits.content, htaken, Repository.committedContent_editsOnly revising_editsOnly, filed_committedContent]
    simp
  · rw [hcommits.edits, hsame]
    rfl
  · obtain ⟨label, htold⟩ := hcommits.told
    refine ⟨label, htold.trans ?_⟩
    rw [hsame]
    rfl

end RepoTutor.Transition
