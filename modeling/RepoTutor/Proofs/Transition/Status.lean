/-
What a status report says.

A report sorts the pending edits into three sections. Together the sections list every path with an edit once
(`paths_perm`), each section in ascending order, and a path is told as deleted, modified or new by what is seen of it and
what is committed (`change_of_edit`). Along a run the pending edits are exactly the paths on which the learner's files
differ from HEAD, so a report lists these paths and no others (`status_lists_differences`).
-/
import RepoTutor.Proofs.Transition.PendingEdits

namespace RepoTutor.Transition

open Command Repo

/-- the paths that a report lists, section by section -/
def StatusReport.paths (s : StatusReport) : List Path :=
  s.staged.map FileChange.path ++ s.unstaged.map FileChange.path ++ s.untracked

/-- a path is reported with a change; a new file that is not staged counts as untracked -/
def StatusReport.Lists (s : StatusReport) (path : Path) : ChangeKind → Prop
  | .added => ⟨path, .added⟩ ∈ s.staged ∨ path ∈ s.untracked
  | .modified => ⟨path, .modified⟩ ∈ s.staged ∨ ⟨path, .modified⟩ ∈ s.unstaged
  | .deleted => ⟨path, .deleted⟩ ∈ s.staged ∨ ⟨path, .deleted⟩ ∈ s.unstaged

/-- each section in ascending order -/
structure StatusReport.Ascending (s : StatusReport) : Prop where
  staged : (s.staged.map FileChange.path).Pairwise (· < ·)
  unstaged : (s.unstaged.map FileChange.path).Pairwise (· < ·)
  untracked : s.untracked.Pairwise (· < ·)

/-- no file differs from HEAD and no merge is pending -/
def NothingPending (r : Repository) : Prop := (∀ p, r.fileContent p = r.committedContent p) ∧ r.mergeHead = none

/-! ## Sections -/

section Sections

variable (r : Repository)

/-- the entry of an edit in a report -/
def reported (e : Path × Edit) : FileChange := ⟨e.1, changeKind r.headTree e.1 e.2⟩

/-- the entries of the edits that are staged, or of those that are not -/
def entriesOf (staged : Bool) : List FileChange :=
  (r.edits.entries.filter (fun e => e.2.staged == staged)).map (reported r)

theorem entriesOf_true : entriesOf r true = (r.edits.entries.filter (fun e => e.2.staged)).map (reported r) := by
  simp [entriesOf]

theorem entriesOf_false : entriesOf r false = (r.edits.entries.filter (fun e => !e.2.staged)).map (reported r) := by
  simp [entriesOf]

theorem status_staged : (status r).staged = entriesOf r true := by
  rw [entriesOf_true]
  rfl

theorem status_unstaged : (status r).unstaged = (entriesOf r false).filter (fun c => c.change ≠ .added) := by
  rw [entriesOf_false]
  rfl

theorem status_untracked :
    (status r).untracked = ((entriesOf r false).filter (fun c => c.change = .added)).map FileChange.path := by
  rw [entriesOf_false]
  rfl

theorem map_path_entriesOf (staged : Bool) :
    (entriesOf r staged).map FileChange.path
      = (r.edits.entries.filter (fun e => e.2.staged == staged)).map Prod.fst := by
  rw [entriesOf, List.map_map]
  rfl

theorem mem_entriesOf {staged : Bool} {c : FileChange} :
    c ∈ entriesOf r staged ↔
      ∃ e, r.edits.get? c.path = some e ∧ e.staged = staged ∧ changeKind r.headTree c.path e = c.change := by
  simp only [entriesOf, List.mem_map, List.mem_filter, beq_iff_eq, Table.get?_eq_some_iff]
  constructor
  · rintro ⟨e, ⟨he, hstaged⟩, rfl⟩
    exact ⟨e.2, he, hstaged, rfl⟩
  · rintro ⟨e, he, hstaged, hkind⟩
    refine ⟨(c.path, e), ⟨he, hstaged⟩, ?_⟩
    rw [reported, hkind]

/-- the sections hold every edit once -/
theorem paths_perm : (status r).paths.Perm r.edits.keys := by
  have hothers : ((status r).unstaged.map FileChange.path ++ (status r).untracked).Perm
      ((entriesOf r false).map FileChange.path) := by
    rw [status_unstaged, status_untracked, ← List.map_append]
    have hsplit := List.filter_append_perm (fun c : FileChange => decide (c.change = .added)) (entriesOf r false)
    exact List.Perm.map _ (List.perm_append_comm.trans (by simpa using hsplit))
  have hall : ((entriesOf r true).map FileChange.path ++ (entriesOf r false).map FileChange.path).Perm r.edits.keys := by
    have hsplit := List.filter_append_perm (fun e : Path × Edit => e.2.staged) r.edits.entries
    rw [map_path_entriesOf, map_path_entriesOf, ← List.map_append]
    exact List.Perm.map _ (by simpa using hsplit)
  rw [StatusReport.paths, List.append_assoc, status_staged]
  exact (hothers.append_left _).trans hall

theorem ascending_keys : r.edits.keys.Pairwise (· < ·) := r.edits.pairwise_keys

theorem ascending_entriesOf (staged : Bool) : ((entriesOf r staged).map FileChange.path).Pairwise (· < ·) := by
  rw [map_path_entriesOf]
  exact (ascending_keys r).sublist (List.filter_sublist.map Prod.fst)

theorem status_ascending : (status r).Ascending := by
  refine ⟨?_, ?_, ?_⟩
  · rw [status_staged]
    exact ascending_entriesOf r true
  · rw [status_unstaged]
    exact (ascending_entriesOf r false).sublist (List.filter_sublist.map _)
  · rw [status_untracked]
    exact (ascending_entriesOf r false).sublist (List.filter_sublist.map _)

/-- a path is listed with a change exactly when its edit makes that change -/
theorem lists_iff (p : Path) (kind : ChangeKind) :
    (status r).Lists p kind ↔ ∃ e, r.edits.get? p = some e ∧ changeKind r.headTree p e = kind := by
  have hsections : (status r).Lists p kind ↔ ⟨p, kind⟩ ∈ entriesOf r true ∨ ⟨p, kind⟩ ∈ entriesOf r false := by
    cases kind with
    | added =>
      simp only [StatusReport.Lists, status_staged, status_untracked, List.mem_map, List.mem_filter, decide_eq_true_eq]
      refine or_congr_right ⟨?_, fun h => ⟨_, ⟨h, rfl⟩, rfl⟩⟩
      rintro ⟨⟨path, change⟩, ⟨h, rfl⟩, rfl⟩
      exact h
    | modified => simp [StatusReport.Lists, status_staged, status_unstaged]
    | deleted => simp [StatusReport.Lists, status_staged, status_unstaged]
  rw [hsections, mem_entriesOf, mem_entriesOf]
  constructor
  · rintro (⟨e, he, -, hkind⟩ | ⟨e, he, -, hkind⟩)
    · exact ⟨e, he, hkind⟩
    · exact ⟨e, he, hkind⟩
  · rintro ⟨e, he, hkind⟩
    cases hstaged : e.staged with
    | true => exact Or.inl ⟨e, he, hstaged, hkind⟩
    | false => exact Or.inr ⟨e, he, hstaged, hkind⟩

end Sections

/-! ## Differences from HEAD -/

section Differences

variable {r : Repository}

/-- the pending edits are exactly the paths on which the files differ from HEAD -/
theorem contains_edit_iff (hsettled : Settled r) (p : Path) :
    r.edits.contains p = true ↔ r.fileContent p ≠ r.committedContent p := by
  rw [Table.contains_eq_true]
  constructor
  · rintro ⟨e, he⟩
    rw [Repository.fileContent_of_edit he]
    exact hsettled p e he
  · intro hne
    rw [← Option.ne_none_iff_exists']
    exact fun hnone => hne (Repository.fileContent_of_noEdit hnone)

theorem committedContent_isSome (hw : WellFormed r) (p : Path) :
    (r.committedContent p).isSome = r.headTree.contains p := by
  unfold Repository.committedContent Repository.contentIn Table.contains
  cases hb : r.headTree.get? p with
  | none => rfl
  | some blob => exact hw.tree_blob_stored hb

/-- the change that a report tells of an edit -/
theorem changeKind_eq (hw : WellFormed r) {p : Path} {e : Edit} (he : r.edits.get? p = some e) :
    changeKind r.headTree p e =
      match r.fileContent p, r.committedContent p with
      | none, _ => .deleted
      | some _, some _ => .modified
      | some _, none => .added := by
  unfold changeKind
  rw [← committedContent_isSome hw, Repository.fileContent_of_edit he]
  cases e.content <;> cases r.committedContent p <;> rfl

theorem count_paths (hsettled : Settled r) (p : Path) :
    (status r).paths.count p = if r.fileContent p = r.committedContent p then 0 else 1 := by
  rw [(paths_perm r).count_eq, r.edits.nodup_keys.count]
  simp only [← Table.contains_iff_mem_keys, contains_edit_iff hsettled, ite_not]

theorem isClean_iff (hsettled : Settled r) : r.isClean = true ↔ NothingPending r := by
  unfold Repository.isClean NothingPending
  rw [Bool.and_eq_true, Table.isEmpty_iff, Option.isNone_iff_eq_none]
  refine and_congr_left' (forall_congr' (fun p => ?_))
  have hdiffers := contains_edit_iff hsettled p
  rw [Table.contains_eq_true, ← Option.ne_none_iff_exists'] at hdiffers
  exact not_iff_not.1 hdiffers

/-- a report is clean when there is nothing to list and no merge is pending -/
theorem status_isClean : (status r).isClean = r.isClean := by
  have hpaths : (status r).paths = [] ↔ r.edits.isEmpty = true := by
    rw [← List.length_eq_zero_iff, (paths_perm r).length_eq]
    simp [Table.keys, Table.isEmpty]
  have hmerging : (status r).merging = r.mergeHead.isSome := rfl
  rw [Bool.eq_iff_iff, Repository.isClean, Bool.and_eq_true, ← hpaths]
  simp only [StatusReport.isClean, StatusReport.paths, hmerging, Bool.and_eq_true, List.isEmpty_iff, List.append_eq_nil_iff,
    List.map_eq_nil_iff]
  cases r.mergeHead <;> simp [and_assoc]

end Differences

/-- **A status report lists exactly the differences from HEAD.** Along a run a path has a pending edit exactly when its
file differs from what HEAD holds. So the sections of a report, each in ascending order, list every path that differs
once and no other: as deleted when the file is gone, as new or untracked when HEAD does not hold it, as modified when
both hold it differently. Repository and report are clean exactly when no path differs and no merge is pending. -/
theorem status_lists_differences {r : Repository} (h : Reachable r) :
    (∀ p, r.edits.contains p = true ↔ r.fileContent p ≠ r.committedContent p)
      ∧ (status r).Ascending
      ∧ (∀ p, (status r).paths.count p = if r.fileContent p = r.committedContent p then 0 else 1)
      ∧ (∀ p, (status r).Lists p .deleted ↔ r.fileContent p = none ∧ r.committedContent p ≠ none)
      ∧ (∀ p, (status r).Lists p .added ↔ r.fileContent p ≠ none ∧ r.committedContent p = none)
      ∧ (∀ p, (status r).Lists p .modified ↔
          ∃ seen held, r.fileContent p = some seen ∧ r.committedContent p = some held ∧ seen ≠ held)
      ∧ ((status r).isClean = true ↔ NothingPending r)
      ∧ (r.isClean = true ↔ NothingPending r) := by
  have hw := h.wellFormed
  have hsettled := h.settled
  have hlists : ∀ p kind, (status r).Lists p kind ↔ r.fileContent p ≠ r.committedContent p ∧
      (match r.fileContent p, r.committedContent p with
        | none, _ => .deleted
        | some _, some _ => .modified
        | some _, none => .added) = kind := by
    intro p kind
    rw [lists_iff, ← contains_edit_iff hsettled, Table.contains_eq_true]
    constructor
    · rintro ⟨e, he, rfl⟩
      exact ⟨⟨e, he⟩, (changeKind_eq hw he).symm⟩
    · rintro ⟨⟨e, he⟩, rfl⟩
      exact ⟨e, he, changeKind_eq hw he⟩
  refine ⟨contains_edit_iff hsettled, status_ascending r, count_paths hsettled, fun p => ?_, fun p => ?_, fun p => ?_, ?_,
    isClean_iff hsettled⟩
  · rw [hlists]
    cases r.fileContent p <;> cases r.committedContent p <;> simp
  · rw [hlists]
    cases r.fileContent p <;> cases r.committedContent p <;> simp
  · rw [hlists]
    cases r.fileContent p <;> cases r.committedContent p <;> simp
  · rw [status_isClean]
    exact isClean_iff hsettled

/-- two new files in a repository without commits -/
def drafted : Repository := (touch (.new "main") ["b", "a"]).state

theorem drafted_reachable : Reachable drafted := by
  have htouch : step (.new "main") (.touch ["b", "a"]) = .ok (touch (.new "main") ["b", "a"]) := rfl
  exact .step (.new "main") htouch ((Repository.new_wellFormed "main").distinct_of_same (touch_effect _ _).commits)

/-- both files are listed, as new ones -/
theorem status_lists_drafts :
    Reachable drafted ∧ (status drafted).untracked = ["a", "b"] ∧ (status drafted).paths.count "a" = 1
      ∧ (status drafted).Lists "b" .added ∧ (status drafted).isClean = false := by
  have hseen : ∀ p ∈ ["a", "b"], drafted.fileContent p = some "" := by decide +kernel
  have hheld : ∀ p, drafted.committedContent p = none := fun p => rfl
  obtain ⟨-, -, hcount, -, hadded, -, hclean, -⟩ := status_lists_differences drafted_reachable
  refine ⟨drafted_reachable, by decide +kernel, ?_, ?_, ?_⟩
  · rw [hcount, hseen "a" (by simp), hheld]
    rfl
  · exact (hadded "b").2 ⟨by rw [hseen "b" (by simp)]; simp, hheld "b"⟩
  · rw [Bool.eq_false_iff, ne_eq, hclean]
    intro h
    have hsame := h.1 "a"
    rw [hseen "a" (by simp), hheld] at hsame
    cases hsame

end RepoTutor.Transition
