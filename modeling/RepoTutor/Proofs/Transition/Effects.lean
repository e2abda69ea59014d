/-
What each operation does when it succeeds.

One lemma for each operation inverts it: it names the ways in which the operation can succeed, with the guards that were
passed, and gives the next repository in each. All statements about runs are derived from these lemmas; none of them
unfolds an operation again. Operations on files and on the stage change edits and nothing else (`EditsOnly`), so for most
properties there are eight cases of a step (`step_effect`).
-/
import RepoTutor.Proofs.Data.Except
import RepoTutor.Proofs.Data.Membership
import RepoTutor.Transition.Apply

namespace RepoTutor.Transition

open Command Repo

/-! ## Edits -/

/-- nothing but edits differs -/
def EditsOnly (r r' : Repository) : Prop := r' = { r with edits := r'.edits }

namespace EditsOnly

theorem refl (r : Repository) : EditsOnly r r := rfl

theorem trans {r r' r'' : Repository} (h : EditsOnly r r') (h' : EditsOnly r' r'') : EditsOnly r r'' := by
  unfold EditsOnly at *
  rw [h'.trans (by rw [h])]

theorem symm {r r' : Repository} (h : EditsOnly r r') : EditsOnly r' r := by
  unfold EditsOnly at *
  rw [h]

theorem of_edits (r : Repository) (t : Table Edit) : EditsOnly r { r with edits := t } := rfl

theorem ite {r a b : Repository} {c : Prop} [Decidable c] (ha : EditsOnly r a) (hb : EditsOnly r b) :
    EditsOnly r (if c then a else b) := by
  split
  · exact ha
  · exact hb

theorem foldl {α : Type} {f : Repository → α → Repository} (hf : ∀ r a, EditsOnly r (f r a)) (l : List α)
    (r : Repository) : EditsOnly r (l.foldl f r) := by
  induction l generalizing r with
  | nil => exact refl r
  | cons a l ih => exact (hf r a).trans (ih (f r a))

variable {r r' : Repository} (h : EditsOnly r r')

include h

theorem commits : r'.commits = r.commits := by rw [h]

theorem blobs : r'.blobs = r.blobs := by rw [h]

theorem branches : r'.branches = r.branches := by rw [h]

theorem head : r'.head = r.head := by rw [h]

theorem mergeHead : r'.mergeHead = r.mergeHead := by rw [h]

theorem clock : r'.clock = r.clock := by rw [h]

theorem headId : r'.headId = r.headId := by rw [h]; rfl

theorem headCommit : r'.headCommit = r.headCommit := by rw [h]; rfl

theorem headTree : r'.headTree = r.headTree := by rw [h]; rfl

/-- two changes of edits that leave every path with the same edit -/
theorem eq_of_edits {r'' : Repository} (h' : EditsOnly r r'') (hedits : ∀ p, r''.edits.get? p = r'.edits.get? p) :
    r'' = r' := by
  rw [h, h', Table.ext_get? hedits]

end EditsOnly

theorem editsOnly_setEdit (r : Repository) (path : Path) (content : Option String) (staged : Bool) :
    EditsOnly r (r.setEdit path content staged) :=
  EditsOnly.ite (.of_edits r _) (.of_edits r _)

theorem editsOnly_settleEdits (r : Repository) : EditsOnly r r.settleEdits := .of_edits r _

theorem editsOnly_markStaged (r : Repository) (staged : Bool) (which : Path → Bool) :
    EditsOnly r (r.markStaged staged which) :=
  .of_edits r _

theorem editsOnly_dropStaged (r : Repository) : EditsOnly r r.dropStaged := .of_edits r _

theorem editsOnly_removePath (r : Repository) (path : Path) : EditsOnly r (removePath r path) :=
  EditsOnly.ite (editsOnly_setEdit r _ _ _) (.of_edits r _)

theorem editsOnly_discardPath (r : Repository) (path : Path) : EditsOnly r (discardPath r path) := by
  unfold discardPath
  split
  · exact EditsOnly.ite (.refl r) (.of_edits r _)
  · exact .refl r

theorem editsOnly_touchPath (r : Repository) (path : Path) : EditsOnly r (touchPath r path) :=
  EditsOnly.ite (editsOnly_setEdit r _ _ _) (.refl r)

theorem editsOnly_stageMerged (merged : Tree) (r : Repository) (path : Path) :
    EditsOnly r (stageMerged merged r path) :=
  editsOnly_setEdit r path _ true

/-- staging the merged contents of any paths -/
theorem editsOnly_stagePaths (merged : Tree) (paths : List Path) (r : Repository) :
    EditsOnly r (paths.foldl (stageMerged merged) r) :=
  .foldl (editsOnly_stageMerged merged) paths r

theorem editsOnly_keepContent (old : Tree) (staged : Bool) (r : Repository) (path : Path) :
    EditsOnly r (keepContent old staged r path) :=
  EditsOnly.ite (.refl r) (editsOnly_setEdit r _ _ _)

theorem editsOnly_keepFiles (r : Repository) (old : Tree) (staged : Bool) : EditsOnly r (keepFiles r old staged) :=
  (EditsOnly.foldl (editsOnly_keepContent old staged) _ r).trans (editsOnly_settleEdits _)

/-! ## HEAD at another commit -/

theorem headTree_of_headId {r : Repository} {id : CommitId} (h : r.headId = some id) :
    r.headTree = r.treeOf (some id) := by
  rw [Repository.headTree, h]

theorem treeOf_congr {r r' : Repository} (h : r'.commits = r.commits) (id : Option CommitId) :
    r'.treeOf id = r.treeOf id := by
  unfold Repository.treeOf
  rw [h]

@[simp] theorem moveHead_commits (r : Repository) (id : CommitId) : (r.moveHead id).commits = r.commits := by
  unfold Repository.moveHead
  split <;> rfl

@[simp] theorem moveHead_edits (r : Repository) (id : CommitId) : (r.moveHead id).edits = r.edits := by
  unfold Repository.moveHead
  split <;> rfl

@[simp] theorem headId_moveHead (r : Repository) (id : CommitId) : (r.moveHead id).headId = some id := by
  unfold Repository.moveHead
  cases r.head <;> simp [Repository.headId]

theorem headTree_moveHead (r : Repository) (id : CommitId) : (r.moveHead id).headTree = r.treeOf (some id) := by
  rw [Repository.headTree, headId_moveHead, treeOf_congr (moveHead_commits r id)]

@[simp] theorem addCommit_commits (r : Repository) (c : Commit) :
    (addCommit r c).commits = r.commits.insert c.id c :=
  moveHead_commits _ _

@[simp] theorem headId_addCommit (r : Repository) (c : Commit) : (addCommit r c).headId = some c.id :=
  headId_moveHead _ _

theorem get?_addCommit (r : Repository) (c : Commit) : (addCommit r c).commits.get? c.id = some c := by
  rw [addCommit_commits, Table.get?_insert, if_pos rfl]

@[simp] theorem addCommit_edits (r : Repository) (c : Commit) : (addCommit r c).edits = r.edits := moveHead_edits _ _

theorem headCommit_addCommit (r : Repository) (c : Commit) : (addCommit r c).headCommit = some c := by
  simp [Repository.headCommit]

theorem headTree_addCommit (r : Repository) (c : Commit) : (addCommit r c).headTree = c.tree := by
  rw [Repository.headTree, Repository.treeOf, headId_addCommit, Option.bind_some, get?_addCommit]

/-! ## Setup and files -/

theorem init_effect (r : Repository) (initialBranch : Option BranchName) :
    (init r initialBranch).state = r ∨ ∃ name, initialBranch = some name ∧ r.commits.isEmpty = true
      ∧ r.branches.isEmpty = true ∧ (init r initialBranch).state = { r with head := .attached name } := by
  unfold init
  split
  · rename_i hempty
    rw [Bool.and_eq_true] at hempty
    cases initialBranch with
    | none => exact Or.inl rfl
    | some name => exact Or.inr ⟨name, rfl, hempty.1, hempty.2, rfl⟩
  · exact Or.inl rfl

theorem add_effect {r : Repository} {pathspecs : List String} {all : Bool} {o : Outcome}
    (h : add r pathspecs all = .ok o) : EditsOnly r o.state := by
  unfold add at h
  split at h
  · cases h
    exact editsOnly_markStaged r _ _
  · obtain ⟨s, -, h⟩ := Except.bind_eq_ok.1 h
    cases h
    exact (editsOnly_markStaged r _ _).trans (EditsOnly.foldl (fun r p => editsOnly_setEdit r p _ _) _ _)

theorem remove_effect {r : Repository} {paths : List Path} {o : Outcome} (h : remove r paths = .ok o) :
    EditsOnly r o.state := by
  obtain ⟨-, -, h⟩ := Except.bind_eq_ok.1 h
  cases h
  exact EditsOnly.foldl editsOnly_removePath paths r

theorem restore_effect {r : Repository} {paths : List Path} {staged : Bool} {o : Outcome}
    (h : restore r paths staged = .ok o) : EditsOnly r o.state := by
  obtain ⟨-, -, h⟩ := Except.bind_eq_ok.1 h
  split at h
  · cases h
    exact editsOnly_markStaged r _ _
  · cases h
    exact EditsOnly.foldl editsOnly_discardPath paths r

theorem touch_effect (r : Repository) (paths : List Path) : EditsOnly r (touch r paths).state :=
  EditsOnly.foldl editsOnly_touchPath paths r

theorem writeFile_effect (r : Repository) (path : Path) (text : String) (append : Bool) :
    EditsOnly r (writeFile r path text append).state :=
  editsOnly_setEdit r _ _ _

theorem deleteFiles_effect {r : Repository} {paths : List Path} {o : Outcome} (h : deleteFiles r paths = .ok o) :
    EditsOnly r o.state := by
  unfold deleteFiles at h
  split at h
  · simp at h
  · cases h
    exact EditsOnly.foldl (fun r p => editsOnly_setEdit r p _ _) paths r

/-! ## Commit -/

/-- the commit that a draft becomes -/
def Draft.commitIn (r : Repository) (d : Draft) : Commit :=
  Commit.make d.parents d.author (tick r.clock) d.message (r.stagedTree d.base)

/-- the repository after a draft has been committed -/
def committed (r : Repository) (d : Draft) : Repository :=
  { (addCommit r.storeStaged (d.commitIn r)).dropStaged with mergeHead := none }.settleEdits

/-- the repository whose staged edits a commit takes: `all` stages the edits of committed files first -/
def stagedFor (r : Repository) (args : CommitArgs) : Repository :=
  if args.all then r.markStaged true r.headTree.contains else r

theorem editsOnly_stagedFor (r : Repository) (args : CommitArgs) : EditsOnly r (stagedFor r args) :=
  EditsOnly.ite (editsOnly_markStaged r _ _) (.refl r)

/-- a draft committed, with the label of the commit and the number of files that it changes -/
def commitOutcome (r : Repository) (d : Draft) : Outcome :=
  let next := committed r d
  let c := d.commitIn r
  say next ["[" ++ commitLabel next d.parents.isEmpty ++ " " ++ short c.id ++ "] " ++ c.summary,
    filesChangedLine (changedPaths (r.treeOf d.parents.head?) (r.stagedTree d.base)).length]

theorem commit_outcome {r : Repository} {args : CommitArgs} {o : Outcome} (h : commit r args = .ok o) :
    ∃ d, (if args.amend then amendDraft (stagedFor r args) args else freshDraft (stagedFor r args) args) = .ok d
      ∧ (args.amend = true → r.mergeHead = none) ∧ o = commitOutcome (stagedFor r args) d := by
  unfold commit at h
  split at h
  · simp at h
  · rename_i hguard
    dsimp only at h
    split at h
    · rename_i hamend
      obtain ⟨d, hd, h⟩ := Except.bind_eq_ok.1 h
      cases h
      exact ⟨d, by rw [if_pos hamend]; exact hd, fun _ => by simpa [hamend] using hguard, rfl⟩
    · rename_i hamend
      obtain ⟨d, hd, h⟩ := Except.bind_eq_ok.1 h
      cases h
      exact ⟨d, by rw [if_neg hamend]; exact hd, fun h => absurd h hamend, rfl⟩

theorem commit_effect {r : Repository} {args : CommitArgs} {o : Outcome} (h : commit r args = .ok o) :
    ∃ d, (if args.amend then amendDraft (stagedFor r args) args else freshDraft (stagedFor r args) args) = .ok d
      ∧ (args.amend = true → r.mergeHead = none) ∧ o.state = committed (stagedFor r args) d := by
  obtain ⟨d, hd, hmerge, rfl⟩ := commit_outcome h
  exact ⟨d, hd, hmerge, rfl⟩

theorem amendDraft_effect {r : Repository} {args : CommitArgs} {d : Draft} (h : amendDraft r args = .ok d) :
    ∃ c, r.headCommit = some c ∧ d = ⟨c.parents, args.message.getD c.message, args.author.getD c.author, c.tree⟩ := by
  unfold amendDraft at h
  split at h
  · simp at h
  · rename_i c hc
    cases h
    exact ⟨c, hc, rfl⟩

theorem freshDraft_effect {r : Repository} {args : CommitArgs} {d : Draft} (h : freshDraft r args = .ok d) :
    (r.hasStaged = true ∨ args.allowEmpty = true ∨ r.mergeHead.isSome = true) ∧
      ∃ message, commitMessage r args = .ok message
        ∧ d = ⟨r.headId.toList ++ r.mergeHead.toList, message, args.author.getD defaultAuthor, r.headTree⟩ := by
  unfold freshDraft at h
  split at h
  · simp at h
  · rename_i hguard
    obtain ⟨message, hmessage, h⟩ := Except.bind_eq_ok.1 h
    cases h
    refine ⟨?_, message, hmessage, rfl⟩
    revert hguard
    cases r.hasStaged <;> cases args.allowEmpty <;> cases r.mergeHead <;> simp

/-! ## Branches -/

/-- the commit that a branch begins at: a revision, or HEAD when none is given -/
def startPoint (r : Repository) : Option String → Option CommitId
  | some rev => r.resolve rev
  | none => r.headId

theorem resolveRef_eq_ok {r : Repository} {rev : String} {id : CommitId} :
    resolveRef r rev = .ok id ↔ r.resolve rev = some id := by
  unfold resolveRef
  cases r.resolve rev <;> simp

theorem resolveRef_eq_error {r : Repository} {rev : String} {e : TransitionError} :
    resolveRef r rev = .error e ↔ r.resolve rev = none ∧ e = .unknownRef rev := by
  unfold resolveRef
  cases r.resolve rev <;> simp [eq_comm]

theorem bornHead_eq_ok {r : Repository} {id : CommitId} : bornHead r = .ok id ↔ r.headId = some id := by
  unfold bornHead
  cases r.headId <;> simp

theorem createBranch_effect {r : Repository} {name : BranchName} {start : Option String} {o : Outcome}
    (h : createBranch r name start = .ok o) :
    ∃ id, startPoint r start = some id ∧ r.branches.contains name = false
      ∧ o.state = { r with branches := r.branches.insert name id } := by
  unfold createBranch at h
  split at h
  · simp at h
  · rename_i hnew
    cases start with
    | none =>
      obtain ⟨id, hid, h⟩ := Except.bind_eq_ok.1 h
      cases h
      exact ⟨id, bornHead_eq_ok.1 hid, by simpa using hnew, rfl⟩
    | some rev =>
      obtain ⟨id, hid, h⟩ := Except.bind_eq_ok.1 h
      cases h
      exact ⟨id, resolveRef_eq_ok.1 hid, by simpa using hnew, rfl⟩

theorem deleteBranch_effect {r : Repository} {name : BranchName} {force : Bool} {o : Outcome}
    (h : deleteBranch r name force = .ok o) :
    ∃ id, r.branches.get? name = some id ∧ r.currentBranch ≠ some name ∧ (force = true ∨ isMerged r id = true)
      ∧ o.state = { r with branches := r.branches.erase name } := by
  unfold deleteBranch at h
  split at h
  · simp at h
  · rename_i id hid
    split at h
    · simp at h
    · rename_i hcurrent
      split at h
      · simp at h
      · rename_i hmerged
        cases h
        refine ⟨id, hid, hcurrent, ?_, rfl⟩
        revert hmerged
        cases force <;> cases isMerged r id <;> simp

theorem renameBranch_effect {r : Repository} {source target : BranchName} {o : Outcome}
    (h : renameBranch r source target = .ok o) :
    (source = target ∧ o.state = r) ∨ (source ≠ target ∧ r.branches.contains target = false
      ∧ ((∃ id, r.branches.get? source = some id ∧ o.state =
            { r with
              branches := (r.branches.erase source).insert target id
              head := if r.currentBranch = some source then .attached target else r.head })
        ∨ (r.branches.get? source = none ∧ r.currentBranch = some source
            ∧ o.state = { r with head := .attached target }))) := by
  unfold renameBranch at h
  dsimp only at h
  split at h
  · rename_i heq
    cases h
    exact Or.inl ⟨heq, rfl⟩
  · rename_i hne
    split at h
    · simp at h
    · rename_i hnew
      refine Or.inr ⟨hne, by simpa using hnew, ?_⟩
      split at h
      · rename_i id hid
        cases h
        refine Or.inl ⟨id, hid, ?_⟩
        simp [silently, say]
      · rename_i hnone
        split at h
        · rename_i hcurrent
          have hcurrent : r.currentBranch = some source := by simpa using hcurrent
          cases h
          exact Or.inr ⟨hnone, hcurrent, by simp [silently, say]⟩
        · simp at h

/-- a branch operation lists the branches or is one of the three above -/
theorem branch_effect {r : Repository} {op : BranchOp} {o : Outcome} (h : branch r op = .ok o) :
    (op = .list ∧ o.state = r) ∨ (∃ name start, op = .create name start ∧ createBranch r name start = .ok o)
      ∨ (∃ name force, op = .delete name force ∧ deleteBranch r name force = .ok o)
      ∨ ∃ given source target, op = .rename given target ∧ given.or r.currentBranch = some source
          ∧ renameBranch r source target = .ok o := by
  cases op with
  | list =>
    cases h
    exact Or.inl ⟨rfl, rfl⟩
  | create name start => exact Or.inr (Or.inl ⟨name, start, rfl, h⟩)
  | delete name force => exact Or.inr (Or.inr (Or.inl ⟨name, force, rfl, h⟩))
  | rename given target =>
    refine Or.inr (Or.inr (Or.inr ?_))
    cases given with
    | some source => exact ⟨some source, source, target, rfl, rfl, h⟩
    | none =>
      simp only [branch] at h
      split at h
      · rename_i source hsource
        exact ⟨none, source, target, rfl, hsource, h⟩
      · simp at h

/-! ## Moving HEAD -/

theorem checkOverwrite_eq_ok {r : Repository} {target : Tree} :
    r.checkOverwrite target = .ok () ↔ r.overwritten target = [] := by
  unfold Repository.checkOverwrite
  cases r.overwritten target <;> simp

theorem checkOverwrite_eq_error {r : Repository} {target : Tree} {e : TransitionError} :
    r.checkOverwrite target = .error e ↔
      r.overwritten target ≠ [] ∧ e = .localChangesWouldBeOverwritten (r.overwritten target) := by
  unfold Repository.checkOverwrite
  cases r.overwritten target <;> simp [eq_comm]

theorem mem_overwritten {r : Repository} {target : Tree} {p : Path} :
    p ∈ r.overwritten target ↔ r.edits.contains p = true ∧ r.headTree.get? p ≠ target.get? p := by
  rw [Repository.overwritten, List.mem_filter, Table.contains_iff_mem_keys, bne_iff_ne]

theorem overwritten_eq_nil_iff {r : Repository} {target : Tree} :
    r.overwritten target = [] ↔ ∀ p ∈ r.edits.keys, r.headTree.get? p = target.get? p := by
  simp [Repository.overwritten, List.filter_eq_nil_iff]

theorem switchHead_effect {r r' : Repository} {head : Head} {id : CommitId} (h : switchHead r head id = .ok r') :
    r.overwritten (r.treeOf (some id)) = [] ∧ r' = { r with head := head }.settleEdits := by
  obtain ⟨hover, h⟩ := Except.then_eq_ok.1 h
  cases h
  exact ⟨checkOverwrite_eq_ok.1 hover, rfl⟩

theorem checkoutNew_effect {r : Repository} {name : BranchName} {start : Option String} {force : Bool} {o : Outcome}
    (h : checkoutNew r name start force = .ok o) :
    (r.branches.contains name = true → force = true) ∧
      ((∃ id, startPoint r start = some id ∧ r.overwritten (r.treeOf (some id)) = []
          ∧ o.state = { r with branches := r.branches.insert name id, head := .attached name }.settleEdits)
        ∨ (start = none ∧ r.headId = none ∧ o.state = { r with head := .attached name })) := by
  unfold checkoutNew at h
  dsimp only at h
  split at h
  · simp at h
  · rename_i hguard
    refine ⟨fun hname => by simpa [hname] using hguard, ?_⟩
    cases start with
    | some rev =>
      obtain ⟨target, htarget, h⟩ := Except.bind_eq_ok.1 h
      obtain ⟨id, hid, rfl⟩ := Except.map_eq_ok.1 htarget
      obtain ⟨hover, h⟩ := Except.then_eq_ok.1 h
      cases h
      exact Or.inl ⟨id, resolveRef_eq_ok.1 hid, checkOverwrite_eq_ok.1 hover, rfl⟩
    | none =>
      obtain ⟨target, htarget, h⟩ := Except.bind_eq_ok.1 h
      cases htarget
      cases hhead : r.headId with
      | some id =>
        rw [hhead] at h
        obtain ⟨hover, h⟩ := Except.then_eq_ok.1 h
        cases h
        exact Or.inl ⟨id, hhead, checkOverwrite_eq_ok.1 hover, rfl⟩
      | none =>
        rw [hhead] at h
        cases h
        exact Or.inr ⟨rfl, rfl, rfl⟩

theorem checkoutDetached_effect {r : Repository} {rev : String} {o : Outcome} (h : checkoutDetached r rev = .ok o) :
    ∃ id, r.resolve rev = some id ∧ r.overwritten (r.treeOf (some id)) = []
      ∧ o.state = { r with head := .detached id }.settleEdits := by
  obtain ⟨id, hid, h⟩ := Except.bind_eq_ok.1 h
  obtain ⟨next, hnext, h⟩ := Except.bind_eq_ok.1 h
  cases h
  exact ⟨id, resolveRef_eq_ok.1 hid, switchHead_effect hnext⟩

theorem checkoutNamed_effect {r : Repository} {target : String} {branchOnly : Bool} {o : Outcome}
    (h : checkoutNamed r target branchOnly = .ok o) :
    (r.currentBranch = some target ∧ o.state = r)
      ∨ (∃ id, r.branches.get? target = some id ∧ r.overwritten (r.treeOf (some id)) = []
          ∧ o.state = { r with head := .attached target }.settleEdits)
      ∨ (branchOnly = false ∧ r.branches.get? target = none ∧ checkoutDetached r target = .ok o) := by
  unfold checkoutNamed at h
  split at h
  · rename_i hcurrent
    cases h
    exact Or.inl ⟨hcurrent, rfl⟩
  · refine Or.inr ?_
    split at h
    · rename_i id hid
      obtain ⟨next, hnext, h⟩ := Except.bind_eq_ok.1 h
      cases h
      exact Or.inl ⟨id, hid, switchHead_effect hnext⟩
    · rename_i hnone
      cases branchOnly with
      | true =>
        simp only [if_true] at h
        split at h <;> simp at h
      | false => exact Or.inr ⟨rfl, hnone, h⟩

theorem checkout_effect {r : Repository} {target : String} {mode : CheckoutMode} {o : Outcome}
    (h : checkout r target mode = .ok o) :
    r.mergeHead = none ∧ ((∃ start force, mode = .create start force ∧ checkoutNew r target start force = .ok o)
      ∨ (mode = .detach ∧ checkoutDetached r target = .ok o)
      ∨ (mode = .branchOnly ∧ checkoutNamed r target true = .ok o)
      ∨ (mode = .any ∧ checkoutNamed r target false = .ok o)) := by
  unfold checkout at h
  split at h
  · simp at h
  · rename_i hmerge
    refine ⟨by simpa using hmerge, ?_⟩
    cases mode with
    | create start force => exact Or.inl ⟨start, force, rfl, h⟩
    | detach => exact Or.inr (Or.inl ⟨rfl, h⟩)
    | branchOnly => exact Or.inr (Or.inr (Or.inl ⟨rfl, h⟩))
    | any => exact Or.inr (Or.inr (Or.inr ⟨rfl, h⟩))

section OtherBranch

variable {r : Repository} {name : BranchName} {id : CommitId} (hmerge : r.mergeHead = none)
  (hother : r.currentBranch ≠ some name) (hid : r.branches.get? name = some id)

include hmerge hother hid

theorem checkout_branch_eq :
    checkout r name .any =
      (switchHead r (.attached name) id >>= fun next => .ok (say next ["Switched to branch '" ++ name ++ "'"])) := by
  simp [checkout, hmerge, checkoutNamed, hother, hid, pure, Except.pure]

/-- another branch is checked out, if no edit is in the way -/
theorem checkout_branch (hover : r.overwritten (r.treeOf (some id)) = []) :
    ∃ o, checkout r name .any = .ok o ∧ o.state = { r with head := .attached name }.settleEdits := by
  have hguard := checkOverwrite_eq_ok.2 hover
  rw [checkout_branch_eq hmerge hother hid, switchHead, hguard]
  exact ⟨_, rfl, rfl⟩

theorem checkout_branch_refused {e : TransitionError} (hguard : r.checkOverwrite (r.treeOf (some id)) = .error e) :
    checkout r name .any = .error e := by
  rw [checkout_branch_eq hmerge hother hid, switchHead, hguard]
  rfl

end OtherBranch

/-! ## Merge -/

/-- the commit of a true merge -/
def mergeCommit (r : Repository) (source : String) (ours theirs : CommitId) (message : Option String) (merged : Tree) :
    Commit :=
  Commit.make [ours, theirs] defaultAuthor (tick r.clock) (message.getD (mergeMessage r source)) merged

theorem advance_effect {r r' : Repository} {id : CommitId} (h : advance r id = .ok r') :
    r.overwritten (r.treeOf (some id)) = [] ∧ r' = (r.moveHead id).settleEdits := by
  obtain ⟨hover, h⟩ := Except.then_eq_ok.1 h
  cases h
  exact ⟨checkOverwrite_eq_ok.1 hover, rfl⟩

/-- a true merge has a base and no conflicts; it is committed at once or left for the next commit -/
theorem trueMerge_effect {r : Repository} {source : String} {ours theirs : CommitId} {commit : Bool}
    {message : Option String} {o : Outcome} (h : trueMerge r source ours theirs commit message = .ok o) :
    ∃ base merged, r.mergeBase ours theirs = some base
      ∧ mergeTrees (r.treeOf (some base)) (r.treeOf (some ours)) (r.treeOf (some theirs)) = .ok merged
      ∧ r.overwritten merged = []
      ∧ ((commit = true ∧ o.state = (addCommit r (mergeCommit r source ours theirs message merged)).settleEdits)
        ∨ (commit = false ∧ o.state =
            { (changedPaths (r.treeOf (some ours)) merged).foldl (stageMerged merged) r with
              mergeHead := some theirs })) := by
  unfold trueMerge at h
  split at h
  · simp at h
  · rename_i base hbase
    dsimp only at h
    split at h
    · simp at h
    · rename_i merged hmerged
      obtain ⟨hover, h⟩ := Except.then_eq_ok.1 h
      refine ⟨base, merged, hbase, hmerged, checkOverwrite_eq_ok.1 hover, ?_⟩
      cases commit with
      | true =>
        cases h
        exact Or.inl ⟨rfl, rfl⟩
      | false =>
        cases h
        exact Or.inr ⟨rfl, rfl⟩

/-- a true merge with a base and without conflicts succeeds, if no edit is in its way -/
theorem trueMerge_succeeds {r : Repository} {ours theirs base : CommitId} {merged : Tree}
    (hbase : r.mergeBase ours theirs = some base)
    (hmerged : mergeTrees (r.treeOf (some base)) (r.treeOf (some ours)) (r.treeOf (some theirs)) = .ok merged)
    (hover : r.overwritten merged = []) (source : String) (commit : Bool) (message : Option String) :
    ∃ o, trueMerge r source ours theirs commit message = .ok o ∧ o.state =
      if commit then (addCommit r (mergeCommit r source ours theirs message merged)).settleEdits
      else { (changedPaths (r.treeOf (some ours)) merged).foldl (stageMerged merged) r with mergeHead := some theirs } := by
  have hover := checkOverwrite_eq_ok.2 hover
  obtain ⟨o, ho⟩ : ∃ o, trueMerge r source ours theirs commit message = .ok o := by
    cases commit with
    | true => simp [trueMerge, hbase, hmerged, hover, bind, Except.bind, pure, Except.pure]
    | false => simp [trueMerge, hbase, hmerged, hover, bind, Except.bind, pure, Except.pure]
  obtain ⟨base', merged', hbase', hmerged', -, hstate⟩ := trueMerge_effect ho
  cases hbase.symm.trans hbase'
  cases hmerged.symm.trans hmerged'
  refine ⟨o, ho, ?_⟩
  rcases hstate with ⟨rfl, hstate⟩ | ⟨rfl, hstate⟩
  · exact hstate
  · exact hstate

theorem merge_effect {r : Repository} {source : String} {ff : FastForward} {commit : Bool} {message : Option String}
    {o : Outcome} (h : merge r source ff commit message = .ok o) :
    r.mergeHead = none ∧ r.hasStaged = false ∧ ∃ theirs, r.resolve source = some theirs
      ∧ ((r.headId = none ∧ r.overwritten (r.treeOf (some theirs)) = []
            ∧ o.state = (r.moveHead theirs).settleEdits)
        ∨ ∃ ours, r.headId = some ours
          ∧ ((r.isAncestor theirs ours = true ∧ o.state = r)
            ∨ (r.isAncestor theirs ours = false ∧ r.isAncestor ours theirs = true ∧ ff ≠ .never
                ∧ r.overwritten (r.treeOf (some theirs)) = [] ∧ o.state = (r.moveHead theirs).settleEdits)
            ∨ (r.isAncestor theirs ours = false ∧ (r.isAncestor ours theirs = false ∨ ff = .never) ∧ ff ≠ .only
                ∧ trueMerge r source ours theirs commit message = .ok o))) := by
  unfold merge at h
  split at h
  · simp at h
  · rename_i hmerge
    split at h
    · simp at h
    · rename_i hstaged
      obtain ⟨theirs, htheirs, h⟩ := Except.bind_eq_ok.1 h
      refine ⟨by simpa using hmerge, by simpa using hstaged, theirs, resolveRef_eq_ok.1 htheirs, ?_⟩
      split at h
      · rename_i hunborn
        obtain ⟨next, hnext, h⟩ := Except.bind_eq_ok.1 h
        cases h
        obtain ⟨hover, hstate⟩ := advance_effect hnext
        exact Or.inl ⟨hunborn, hover, hstate⟩
      · rename_i ours hours
        refine Or.inr ⟨ours, hours, ?_⟩
        split at h
        · rename_i hold
          cases h
          exact Or.inl ⟨hold, rfl⟩
        · rename_i hold
          refine Or.inr ?_
          split at h
          · rename_i hforward
            obtain ⟨next, hnext, h⟩ := Except.bind_eq_ok.1 h
            cases h
            obtain ⟨hover, hstate⟩ := advance_effect hnext
            rw [Bool.and_eq_true, decide_eq_true_eq] at hforward
            exact Or.inl ⟨by simpa using hold, hforward.1, hforward.2, hover, hstate⟩
          · rename_i hforward
            split at h
            · simp at h
            · rename_i honly
              refine Or.inr ⟨by simpa using hold, ?_, honly, h⟩
              by_cases hnever : ff = .never
              · exact Or.inr hnever
              · exact Or.inl (by simpa [hnever] using hforward)

/-- histories that have both moved on, or must not be fast-forwarded, are joined -/
theorem merge_eq_trueMerge {r : Repository} {source : String} {ff : FastForward} {ours theirs : CommitId}
    (hmerge : r.mergeHead = none) (hstaged : r.hasStaged = false) (htheirs : r.resolve source = some theirs)
    (hours : r.headId = some ours) (hnew : r.isAncestor theirs ours = false)
    (hapart : r.isAncestor ours theirs = false ∨ ff = .never) (honly : ff ≠ .only) (commit : Bool)
    (message : Option String) :
    merge r source ff commit message = trueMerge r source ours theirs commit message := by
  rcases hapart with hapart | rfl
  · simp [merge, resolveRef, hmerge, hstaged, htheirs, hours, hnew, hapart, honly, bind, Except.bind]
  · simp [merge, resolveRef, hmerge, hstaged, htheirs, hours, hnew, bind, Except.bind]

/-- a commit that HEAD's history holds is not merged again -/
theorem merge_upToDate {r : Repository} {source : String} {ours theirs : CommitId} (hmerge : r.mergeHead = none)
    (hstaged : r.hasStaged = false) (htheirs : r.resolve source = some theirs) (hours : r.headId = some ours)
    (hold : r.isAncestor theirs ours = true) (ff : FastForward) (commit : Bool) (message : Option String) :
    merge r source ff commit message = .ok (say r ["Already up to date."]) := by
  simp [merge, resolveRef, hmerge, hstaged, htheirs, hours, hold, bind, Except.bind, pure, Except.pure]

theorem abortMerge_effect {r : Repository} {o : Outcome} (h : abortMerge r = .ok o) :
    r.mergeHead.isSome = true ∧ o.state = { r.dropStaged with mergeHead := none } := by
  unfold abortMerge at h
  split at h
  · simp at h
  · rename_i hmerge
    cases h
    exact ⟨by simpa [Option.isSome_iff_ne_none] using hmerge, rfl⟩

/-! ## Reset -/

/-- HEAD at the target of a reset and no pending merge; without a commit to go to, HEAD stays -/
def resetHead (r : Repository) (id : Option CommitId) : Repository :=
  match id with
  | some id => { r with mergeHead := none }.moveHead id
  | none => { r with mergeHead := none }

/-- the outcome of a reset once HEAD has moved -/
def resetOutcome (old : Tree) (moved : Repository) : ResetMode → Outcome
  | .hard => say { moved with edits := .empty } [hardResetLine moved]
  | .soft => silently (keepFiles moved old true)
  | .mixed =>
    let next := keepFiles (moved.markStaged false (fun _ => true)) old false
    if next.edits.isEmpty then silently next
    else say next ("Unstaged changes after reset:" :: next.edits.entries.map (resetLine next.headTree))

theorem reset_eq (r : Repository) (target : Option String) (mode : ResetMode) :
    reset r target mode = match target with
      | some rev => (resolveRef r rev).map (fun id => resetOutcome r.headTree (resetHead r (some id)) mode)
      | none => .ok (resetOutcome r.headTree (resetHead r r.headId) mode) := by
  cases target with
  | some rev =>
    simp only [reset]
    cases resolveRef r rev with
    | error e => rfl
    | ok id =>
      cases mode with
      | hard => rfl
      | soft => rfl
      | mixed => exact (apply_ite Except.ok _ _ _).symm
  | none =>
    simp only [reset]
    cases hid : r.headId with
    | none =>
      cases mode with
      | hard => rfl
      | soft => rfl
      | mixed => exact (apply_ite Except.ok _ _ _).symm
    | some id =>
      cases mode with
      | hard => rfl
      | soft => rfl
      | mixed => exact (apply_ite Except.ok _ _ _).symm

theorem resetOutcome_state (old : Tree) (moved : Repository) (mode : ResetMode) :
    (resetOutcome old moved mode).state = match mode with
      | .hard => { moved with edits := .empty }
      | .soft => keepFiles moved old true
      | .mixed => keepFiles (moved.markStaged false (fun _ => true)) old false := by
  cases mode with
  | hard => rfl
  | soft => rfl
  | mixed =>
    simp only [resetOutcome]
    split <;> rfl

theorem editsOnly_resetOutcome (old : Tree) (moved : Repository) (mode : ResetMode) :
    EditsOnly moved (resetOutcome old moved mode).state := by
  rw [resetOutcome_state]
  cases mode with
  | hard => exact .of_edits _ _
  | soft => exact editsOnly_keepFiles _ _ _
  | mixed => exact (editsOnly_markStaged _ _ _).trans (editsOnly_keepFiles _ _ _)

theorem reset_effect {r : Repository} {target : Option String} {mode : ResetMode} {o : Outcome}
    (h : reset r target mode = .ok o) :
    (target.isSome = true → (startPoint r target).isSome = true)
      ∧ o = resetOutcome r.headTree (resetHead r (startPoint r target)) mode := by
  rw [reset_eq] at h
  cases target with
  | some rev =>
    obtain ⟨id, hid, rfl⟩ := Except.map_eq_ok.1 h
    have hid := resolveRef_eq_ok.1 hid
    simp [startPoint, hid]
  | none =>
    cases h
    exact ⟨fun h => absurd h (by simp), rfl⟩

theorem log_effect {r : Repository} {target : Option String} {limit : Option Nat} {oneline : Bool} {o : Outcome}
    (h : log r target limit oneline = .ok o) : o.state = r := by
  unfold log at h
  cases target with
  | some rev =>
    obtain ⟨start, -, h⟩ := Except.bind_eq_ok.1 h
    cases h
    rfl
  | none =>
    obtain ⟨start, -, h⟩ := Except.bind_eq_ok.1 h
    cases h
    rfl

/-! ## Operations -/

/-- what an operation that succeeds has done: it changed edits only, or it is one of those whose effects stand above -/
inductive StepEffect (r : Repository) (o : Outcome) : Operation → Prop where
  | edits {op : Operation} : EditsOnly r o.state → StepEffect r o op
  | init (initialBranch : Option BranchName) : o = init r initialBranch → StepEffect r o (.init initialBranch)
  | commit (args : CommitArgs) : commit r args = .ok o → StepEffect r o (.commit args)
  | branch (op : BranchOp) : branch r op = .ok o → StepEffect r o (.branch op)
  | checkout (target : String) (mode : CheckoutMode) :
    checkout r target mode = .ok o → StepEffect r o (.checkout target mode)
  | merge (source : String) (ff : FastForward) (commit : Bool) (message : Option String) :
    merge r source ff commit message = .ok o → StepEffect r o (.merge (.start source ff commit message))
  | abort : abortMerge r = .ok o → StepEffect r o (.merge .abort)
  | reset (target : Option String) (mode : ResetMode) : reset r target mode = .ok o → StepEffect r o (.reset target mode)

theorem step_effect {r : Repository} {op : Operation} {o : Outcome} (h : step r op = .ok o) : StepEffect r o op := by
  cases op with
  | init initialBranch => exact .init initialBranch (Except.ok.inj h).symm
  | add pathspecs all => exact .edits (add_effect h)
  | remove paths => exact .edits (remove_effect h)
  | restore paths staged => exact .edits (restore_effect h)
  | commit args => exact .commit args h
  | branch op => exact .branch op h
  | checkout target mode => exact .checkout target mode h
  | merge op =>
    cases op with
    | start source ff commit message => exact .merge source ff commit message h
    | abort => exact .abort h
  | reset target mode => exact .reset target mode h
  | log target limit oneline =>
    have hstate : o.state = r := log_effect h
    exact .edits (by rw [hstate]; exact .refl r)
  | status =>
    cases h
    exact .edits (.refl r)
  | touch paths =>
    cases h
    exact .edits (touch_effect r paths)
  | writeFile path text append =>
    cases h
    exact .edits (writeFile_effect r path text append)
  | deleteFile paths => exact .edits (deleteFiles_effect h)

end RepoTutor.Transition
