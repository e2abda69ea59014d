/-
Which names branches have.

A branch gets its name from an operation that creates or renames it, or from HEAD when the first commit is made there, and
HEAD gets its from such an operation too. So whatever holds of the names in operations holds of all names in a repository
(`step_named`). The reader of lines accepts a name only if it cannot be taken for a revision of another kind
(`resolve_branch`). Hence after any lines every branch can be addressed by its name (`branches_stay_addressable`).
-/
import RepoTutor.Proofs.Command.Vetting
import RepoTutor.Proofs.Practice.Replay
import RepoTutor.Proofs.Transition.EmptyCommits
import RepoTutor.Proofs.Transition.Staging

namespace RepoTutor.Transition

open Command Repo Practice

/-! ## Names in a repository -/

/-- all branches, and the one that HEAD follows, have names of one kind -/
structure Named (P : BranchName → Prop) (r : Repository) : Prop where
  branch : ∀ name id, r.branches.get? name = some id → P name
  head : ∀ name, r.head = .attached name → P name

namespace Named

variable {P : BranchName → Prop} {r r' : Repository}

theorem new {branch : BranchName} (h : P branch) : Named P (.new branch) where
  branch name id hid := by cases hid
  head name hname := by
    cases hname
    exact h

theorem congr (h : Named P r) (hbranches : r'.branches = r.branches) (hhead : r'.head = r.head) : Named P r' :=
  ⟨fun name id hid => h.branch name id (hbranches ▸ hid), fun name hname => h.head name (hhead ▸ hname)⟩

theorem editsOnly (h : Named P r) (hedits : EditsOnly r r') : Named P r' := h.congr hedits.branches hedits.head

theorem attach (h : Named P r) {name : BranchName} (hname : P name) : Named P { r with head := .attached name } where
  branch := h.branch
  head other hother := by
    cases hother
    exact hname

theorem detach (h : Named P r) (id : CommitId) : Named P { r with head := .detached id } where
  branch := h.branch
  head name hname := by cases hname

theorem insertBranch (h : Named P r) {name : BranchName} (hname : P name) (id : CommitId) :
    Named P { r with branches := r.branches.insert name id } where
  branch other x hx := by
    rw [Table.get?_insert] at hx
    split at hx
    · rename_i heq
      exact heq ▸ hname
    · exact h.branch other x hx
  head := h.head

theorem eraseBranch (h : Named P r) (name : BranchName) : Named P { r with branches := r.branches.erase name } where
  branch other x hx := by
    rw [Table.get?_erase] at hx
    split at hx
    · cases hx
    · exact h.branch other x hx
  head := h.head

/-- a commit at HEAD makes at most the branch that HEAD follows -/
theorem moveHead (h : Named P r) (id : CommitId) : Named P (r.moveHead id) := by
  unfold Repository.moveHead
  split
  · rename_i name hname
    exact h.insertBranch (h.head name hname) id
  · exact h.detach id

theorem addCommit (h : Named P r) (c : Commit) : Named P (addCommit r c) := by
  have hgrown : Named P { r with clock := c.timestamp, commits := r.commits.insert c.id c } := h.congr rfl rfl
  exact hgrown.moveHead c.id

end Named

/-! ## Operations -/

section Operations

variable {P : BranchName → Prop} {r : Repository} {o : Outcome}

theorem init_named (h : Named P r) {initialBranch : Option BranchName} (hname : ∀ name, initialBranch = some name → P name) :
    Named P (init r initialBranch).state := by
  rcases init_effect r initialBranch with hstate | ⟨name, hinitial, -, -, hstate⟩
  · rw [hstate]
    exact h
  · rw [hstate]
    exact h.attach (hname name hinitial)

theorem commit_named (h : Named P r) {args : CommitArgs} (ho : commit r args = .ok o) : Named P o.state := by
  obtain ⟨d, -, -, hstate⟩ := commit_effect ho
  have hstaged : Named P (stagedFor r args).storeStaged := by
    rw [Repository.storeStaged_eq]
    exact (h.editsOnly (editsOnly_stagedFor r args)).congr rfl rfl
  rw [hstate]
  exact (hstaged.addCommit (d.commitIn (stagedFor r args))).congr rfl rfl

theorem branch_named (h : Named P r) {op : BranchOp} (hname : ∀ name ∈ (Operation.branch op).newNames, P name)
    (ho : branch r op = .ok o) : Named P o.state := by
  rcases branch_effect ho with
    ⟨-, hstate⟩ | ⟨name, start, rfl, ho⟩ | ⟨name, force, -, ho⟩ | ⟨given, source, target, rfl, -, ho⟩
  · rw [hstate]
    exact h
  · obtain ⟨id, -, -, hstate⟩ := createBranch_effect ho
    rw [hstate]
    exact h.insertBranch (hname name List.mem_cons_self) id
  · obtain ⟨id, -, -, -, hstate⟩ := deleteBranch_effect ho
    rw [hstate]
    exact h.eraseBranch name
  · have htarget := hname target List.mem_cons_self
    rcases renameBranch_effect ho with ⟨-, hstate⟩ | ⟨-, -, ⟨id, -, hstate⟩ | ⟨-, -, hstate⟩⟩
    · rw [hstate]
      exact h
    · have hrenamed : Named P { r with branches := (r.branches.erase source).insert target id } :=
        (h.eraseBranch source).insertBranch htarget id
      rw [hstate]
      split
      · exact hrenamed.attach htarget
      · exact hrenamed
    · rw [hstate]
      exact h.attach htarget

theorem checkout_named (h : Named P r) {target : String} {mode : CheckoutMode}
    (hname : ∀ name ∈ (Operation.checkout target mode).newNames, P name) (hcheckout : checkout r target mode = .ok o) :
    Named P o.state := by
  have hdetached : checkoutDetached r target = .ok o → Named P o.state := by
    intro ho
    obtain ⟨id, -, -, hstate⟩ := checkoutDetached_effect ho
    rw [hstate]
    exact (h.detach id).editsOnly (editsOnly_settleEdits _)
  have hexisting : ∀ branchOnly, checkoutNamed r target branchOnly = .ok o → Named P o.state := by
    intro branchOnly ho
    rcases checkoutNamed_effect ho with ⟨-, hstate⟩ | ⟨id, hid, -, hstate⟩ | ⟨-, -, ho⟩
    · rw [hstate]
      exact h
    · rw [hstate]
      exact (h.attach (h.branch target id hid)).editsOnly (editsOnly_settleEdits _)
    · exact hdetached ho
  rcases (checkout_effect hcheckout).2 with ⟨start, force, rfl, ho⟩ | ⟨-, ho⟩ | ⟨-, ho⟩ | ⟨-, ho⟩
  · have htarget := hname target List.mem_cons_self
    rcases (checkoutNew_effect ho).2 with ⟨id, -, -, hstate⟩ | ⟨-, -, hstate⟩
    · rw [hstate]
      exact ((h.insertBranch htarget id).attach htarget).editsOnly (editsOnly_settleEdits _)
    · rw [hstate]
      exact h.attach htarget
  · exact hdetached ho
  · exact hexisting true ho
  · exact hexisting false ho

theorem merge_named (h : Named P r) {source : String} {ff : FastForward} {commit : Bool} {message : Option String}
    (ho : merge r source ff commit message = .ok o) : Named P o.state := by
  obtain ⟨-, -, theirs, -, hcases⟩ := merge_effect ho
  have hmoved : Named P (r.moveHead theirs).settleEdits := (h.moveHead theirs).editsOnly (editsOnly_settleEdits _)
  rcases hcases with ⟨-, -, hstate⟩ | ⟨ours, -, ⟨-, hstate⟩ | ⟨-, -, -, -, hstate⟩ | ⟨-, -, -, ho⟩⟩
  · rw [hstate]
    exact hmoved
  · rw [hstate]
    exact h
  · rw [hstate]
    exact hmoved
  · obtain ⟨base, merged, -, -, -, ⟨-, hstate⟩ | ⟨-, hstate⟩⟩ := trueMerge_effect ho
    · rw [hstate]
      exact (h.addCommit _).editsOnly (editsOnly_settleEdits _)
    · have hedits := editsOnly_stagePaths merged (changedPaths (r.treeOf (some ours)) merged) r
      rw [hstate]
      exact (h.editsOnly hedits).congr rfl rfl

theorem reset_named (h : Named P r) {target : Option String} {mode : ResetMode} (ho : reset r target mode = .ok o) :
    Named P o.state := by
  obtain ⟨-, rfl⟩ := reset_effect ho
  refine Named.editsOnly ?_ (editsOnly_resetOutcome _ _ mode)
  have hcleared : Named P { r with mergeHead := none } := h.congr rfl rfl
  cases startPoint r target with
  | none => exact hcleared
  | some id => exact hcleared.moveHead id

/-- **Names come from operations.** If the names that an operation brings are of the kind that all names in the repository
are of, then so are all names after it. -/
theorem step_named (h : Named P r) {op : Operation} (hname : ∀ name ∈ op.newNames, P name)
    (hstep : step r op = .ok o) : Named P o.state := by
  cases step_effect hstep with
  | edits hedits => exact h.editsOnly hedits
  | init initialBranch ho =>
    refine ho ▸ init_named h (fun name hinitial => ?_)
    subst hinitial
    exact hname name List.mem_cons_self
  | commit args ho => exact commit_named h ho
  | branch op ho => exact branch_named h hname ho
  | checkout target mode ho => exact checkout_named h hname ho
  | merge source ff commit message ho => exact merge_named h ho
  | abort ho =>
    obtain ⟨-, hstate⟩ := abortMerge_effect ho
    rw [hstate]
    exact h.congr rfl rfl
  | reset target mode ho => exact reset_named h ho

end Operations

/-! ## Names as revisions -/

theorem isStepMark_of_isBranchNameChar {c : Char} (h : isBranchNameChar c = true) : isStepMark c = false := by
  rw [isStepMark, Bool.or_eq_false_iff, beq_eq_false_iff_ne, beq_eq_false_iff_ne]
  constructor
  · rintro rfl
    exact absurd h (by decide)
  · rintro rfl
    exact absurd h (by decide)

/-- a test finds no fault when neither it nor the tests after it do -/
theorem passed_of_eq_none {c : Bool} {reason : String} {rest : Option String}
    (h : (if c then some reason else rest) = none) : c = false ∧ rest = none := by
  cases c with
  | true => cases h
  | false => exact ⟨rfl, h⟩

/-- an accepted name has no suffix, and is no other name of HEAD -/
theorem branchNameFault?_eq_none {name : String} (h : branchNameFault? name = none) :
    (∀ c ∈ name.toList, isStepMark c = false) ∧ name ≠ "HEAD" ∧ name ≠ "@" := by
  unfold branchNameFault? at h
  obtain ⟨-, h⟩ := passed_of_eq_none h
  obtain ⟨hchars, h⟩ := passed_of_eq_none h
  obtain ⟨-, h⟩ := passed_of_eq_none h
  obtain ⟨-, h⟩ := passed_of_eq_none h
  obtain ⟨-, h⟩ := passed_of_eq_none h
  obtain ⟨hreserved, -⟩ := passed_of_eq_none h
  rw [Bool.or_eq_false_iff, decide_eq_false_iff_not, decide_eq_false_iff_not] at hreserved
  rw [Bool.not_eq_false', List.all_eq_true] at hchars
  exact ⟨fun c hc => isStepMark_of_isBranchNameChar (hchars c hc), hreserved⟩

/-- an accepted name is read as the branch -/
theorem resolve_branch {r : Repository} {name : BranchName} (h : branchNameFault? name = none) {id : CommitId}
    (hid : r.branches.get? name = some id) : r.resolve name = some id := by
  obtain ⟨hplain, hhead, hat⟩ := branchNameFault?_eq_none h
  rw [r.resolve_of_unmarked hplain]
  simp [Repository.resolveBase, hhead, hat, hid]

/-! ## Lines -/

/-- the repository after one line, which is skipped if it is not understood or is refused -/
def tryLine (r : Repository) (line : String) : Repository :=
  match replayLine r line with
  | .ok next => next
  | .error _ => r

def afterLines (r : Repository) (lines : List String) : Repository := lines.foldl tryLine r

/-- a line brings accepted names only -/
theorem tryLine_named {r : Repository} (h : Named (fun name => branchNameFault? name = none) r) (line : String) :
    Named (fun name => branchNameFault? name = none) (tryLine r line) := by
  unfold tryLine
  cases hline : replayLine r line with
  | error e => exact h
  | ok next =>
    obtain ⟨op, o, hop, ho, rfl⟩ := replayLine_eq_ok.1 hline
    obtain ⟨words, -, hvetted⟩ := parse_vetted hop
    exact step_named h hvetted.names (apply_eq_ok.1 ho).1

theorem afterLines_named {r : Repository} (h : Named (fun name => branchNameFault? name = none) r) (lines : List String) :
    Named (fun name => branchNameFault? name = none) (afterLines r lines) := by
  induction lines generalizing r with
  | nil => exact h
  | cons line lines ih => exact ih (tryLine_named h line)

theorem checkBranchName_eq_ok {command name : String} :
    checkBranchName command name = .ok () ↔ branchNameFault? name = none := by
  unfold checkBranchName
  cases branchNameFault? name <;> simp

/-- **Every branch can be addressed by its name.** After any lines, from a repository whose first branch has an accepted
name, all branches and the one that HEAD follows have accepted names, and the name of a branch, as a revision, is the
commit of that branch. -/
theorem branches_stay_addressable {command : String} {branch : BranchName}
    (h : checkBranchName command branch = .ok ()) (lines : List String) :
    let r := afterLines (.new branch) lines
    (∀ name id, r.branches.get? name = some id →
        (∀ command, checkBranchName command name = .ok ()) ∧ r.resolve name = some id)
      ∧ ∀ name, r.head = .attached name → ∀ command, checkBranchName command name = .ok () := by
  intro r
  have hnamed := afterLines_named (.new (checkBranchName_eq_ok.1 h)) lines
  refine ⟨fun name id hid => ?_, fun name hname command => checkBranchName_eq_ok.2 (hnamed.head name hname)⟩
  have hname := hnamed.branch name id hid
  exact ⟨fun command => checkBranchName_eq_ok.2 hname, resolve_branch hname hid⟩

/-- a first commit on a branch whose name could be the beginning of a commit's -/
def beefLines : List String := ["git checkout -b beef", "git commit --allow-empty -m one"]

theorem beef_is_addressable :
    checkBranchName "init" "main" = .ok ()
      ∧ ∃ id, (afterLines (.new "main") beefLines).branches.get? "beef" = some id
        ∧ (afterLines (.new "main") beefLines).commits.contains id = true
        ∧ (afterLines (.new "main") beefLines).resolve "beef" = some id
        ∧ checkBranchName "branch" "beef" = .ok () := by
  have hmain : checkBranchName "init" "main" = .ok () := by decide +kernel
  have hcheckout : replayLine (.new "main") "git checkout -b beef" = .ok (.new "beef") := by decide +kernel
  have hparse : parse "git commit --allow-empty -m one" = .ok (.commit { message := some "one", allowEmpty := true }) := by
    decide +kernel
  obtain ⟨o, ho, -, hstate⟩ := apply_firstCommit "beef" "one" rfl
  have hcommit : replayLine (.new "beef") "git commit --allow-empty -m one" = .ok o.state :=
    replayLine_eq_ok.2 ⟨_, o, hparse, ho, rfl⟩
  have hafter : afterLines (.new "main") beefLines = o.state := by
    simp [afterLines, beefLines, tryLine, hcheckout, hcommit]
  have hbranch : o.state.branches.get? "beef" = some (Commit.make [] defaultAuthor 1 "one" .empty).id := by
    simp [hstate]
  have hstored : o.state.commits.contains (Commit.make [] defaultAuthor 1 "one" .empty).id = true := by
    simp [hstate, Table.contains_insert]
  obtain ⟨haddressable, -⟩ := branches_stay_addressable hmain beefLines
  obtain ⟨haccepted, hresolved⟩ := haddressable "beef" _ (hafter ▸ hbranch)
  exact ⟨hmain, _, hafter ▸ hbranch, hafter ▸ hstored, hresolved, haccepted "branch"⟩

end RepoTutor.Transition
