/-
The file view, and what each change of a repository does to it.

A learner sees the pending edit of a path, or else its committed content. The operations are made of a few changes of the
edits; each is told here by the edit that a path has after it and by what is seen of the path:
- recording a content touches the edit of its path only (`get?_setEdit`);
- settling, staging and unstaging show what was seen before (`fileContent_settleEdits`, `fileContent_markStaged`);
- keeping the files over a move of HEAD shows the old files (`fileContent_keepFiles`).
Committed contents depend on HEAD, the commits and the stored contents only (`committedContent_congr`).
-/
import RepoTutor.Proofs.Repo.TreeMerge
import RepoTutor.Proofs.Transition.Pointers

namespace RepoTutor.Repo.Repository

open Transition

variable {r r' : Repository}

/-! ## Committed contents -/

theorem contentIn_congr (hblobs : r'.blobs = r.blobs) (tree : Tree) (p : Path) :
    r'.contentIn tree p = r.contentIn tree p := by
  unfold contentIn
  rw [hblobs]

/-- what is stored is shown with the same content after more has been stored -/
theorem contentIn_extends (hblobs : Table.Extends r.blobs r'.blobs) {tree : Tree} {p : Path}
    (hstored : ∀ blob, tree.get? p = some blob → r.blobs.contains blob = true) :
    r'.contentIn tree p = r.contentIn tree p := by
  unfold contentIn
  cases hblob : tree.get? p with
  | none => rfl
  | some blob =>
    obtain ⟨text, htext⟩ := Table.contains_eq_true.1 (hstored blob hblob)
    rw [Option.bind_some, Option.bind_some, htext, hblobs blob text htext]

theorem committedContent_congr (hcommits : r'.commits = r.commits) (hblobs : r'.blobs = r.blobs)
    (hhead : r'.headId = r.headId) (p : Path) : r'.committedContent p = r.committedContent p := by
  rw [committedContent, committedContent, headTree, headTree, hhead, treeOf_congr hcommits, contentIn_congr hblobs]

theorem committedContent_editsOnly (h : EditsOnly r r') (p : Path) : r'.committedContent p = r.committedContent p :=
  committedContent_congr h.commits h.blobs h.headId p

theorem headTree_of_noCommits (h : r.commits.isEmpty = true) : r.headTree = .empty := by
  have hnone : r.headCommit = none := by
    cases hid : r.headId with
    | none => rw [headCommit, hid, Option.bind_none]
    | some id => rw [headCommit, hid, Option.bind_some, Table.isEmpty_iff.1 h]
  unfold headTree treeOf
  rw [headCommit] at hnone
  rw [hnone]

/-- HEAD holds what it held when it is at its commit still, or when there are no commits -/
theorem committedContent_repoints (h : Repoints r r') (hhead : ∀ id, r.headId = some id → r'.headId = some id)
    (hunborn : r.headId = none → r.commits.isEmpty = true) (p : Path) :
    r'.committedContent p = r.committedContent p := by
  cases hid : r.headId with
  | some id => exact committedContent_congr h.commits h.blobs ((hhead id hid).trans hid.symm) p
  | none =>
    have hnone := hunborn hid
    have hnone' : r'.commits.isEmpty = true := by rw [h.commits]; exact hnone
    rw [committedContent, committedContent, headTree_of_noCommits hnone, headTree_of_noCommits hnone']
    rfl

/-! ## The view -/

theorem fileContent_of_edit {p : Path} {e : Edit} (h : r.edits.get? p = some e) : r.fileContent p = e.content := by
  rw [fileContent, h]

theorem fileContent_of_noEdit {p : Path} (h : r.edits.get? p = none) : r.fileContent p = r.committedContent p := by
  rw [fileContent, h]

/-- the view is told by the contents of edits and by what is committed, whatever is staged -/
theorem fileContent_congr {p : Path} (hcommitted : r'.committedContent p = r.committedContent p)
    (hedit : (r'.edits.get? p).map Edit.content = (r.edits.get? p).map Edit.content) :
    r'.fileContent p = r.fileContent p := by
  unfold fileContent
  cases h : r.edits.get? p with
  | none =>
    rw [h, Option.map_none, Option.map_eq_none_iff] at hedit
    rw [hedit]
    exact hcommitted
  | some e =>
    rw [h, Option.map_some, Option.map_eq_some_iff] at hedit
    obtain ⟨e', he', hcontent⟩ := hedit
    rw [he']
    exact hcontent

/-! ## Recording an edit -/

theorem get?_setEdit (r : Repository) (path p : Path) (content : Option String) (staged : Bool) :
    (r.setEdit path content staged).edits.get? p =
      if path = p then (if r.committedContent path = content then none else some ⟨content, staged⟩)
      else r.edits.get? p := by
  unfold setEdit
  split <;> simp

/-! ## Settling and staging -/

theorem get?_settleEdits (r : Repository) (p : Path) :
    r.settleEdits.edits.get? p = (r.edits.get? p).filter (fun e => r.committedContent p != e.content) :=
  Table.get?_filter _ _ _

theorem fileContent_settleEdits (r : Repository) (p : Path) : r.settleEdits.fileContent p = r.fileContent p := by
  have hcommitted := committedContent_editsOnly (editsOnly_settleEdits r) p
  have hedit := get?_settleEdits r p
  cases h : r.edits.get? p with
  | none =>
    rw [h, Option.filter_none] at hedit
    rw [fileContent_of_noEdit hedit, fileContent_of_noEdit h, hcommitted]
  | some e =>
    rw [h, Option.filter_some] at hedit
    rw [fileContent_of_edit h]
    split at hedit
    · exact fileContent_of_edit hedit
    · rename_i hsame
      rw [fileContent_of_noEdit hedit, hcommitted]
      simpa using hsame

theorem get?_markStaged (r : Repository) (staged : Bool) (which : Path → Bool) (p : Path) :
    (r.markStaged staged which).edits.get? p =
      (r.edits.get? p).map (fun e => if which p then { e with staged := staged } else e) :=
  Table.get?_map _ _ _

theorem content_markStaged (r : Repository) (staged : Bool) (which : Path → Bool) (p : Path) :
    ((r.markStaged staged which).edits.get? p).map Edit.content = (r.edits.get? p).map Edit.content := by
  rw [get?_markStaged]
  cases r.edits.get? p with
  | none => rfl
  | some e =>
    simp only [Option.map_some]
    split <;> rfl

theorem fileContent_markStaged (r : Repository) (staged : Bool) (which : Path → Bool) (p : Path) :
    (r.markStaged staged which).fileContent p = r.fileContent p :=
  fileContent_congr (committedContent_editsOnly (editsOnly_markStaged r staged which) p)
    (content_markStaged r staged which p)

theorem get?_dropStaged (r : Repository) (p : Path) :
    r.dropStaged.edits.get? p = (r.edits.get? p).filter (fun e => !e.staged) :=
  Table.get?_filter _ _ _

/-! ## Keeping the files over a move of HEAD -/

/-- what is seen of a path that has no edit of its own when its old content is kept -/
def keptContent (old : Tree) (r : Repository) (p : Path) : Option String :=
  match r.edits.get? p with
  | some e => e.content
  | none => r.contentIn old p

/-- the edit that shows a path with its old content; none when HEAD holds that content -/
def keptEdit (r : Repository) (old : Tree) (staged : Bool) (p : Path) : Option Edit :=
  if r.committedContent p = r.contentIn old p then none else some ⟨r.contentIn old p, staged⟩

theorem keptEdit_editsOnly {r r' : Repository} (h : EditsOnly r r') (old : Tree) (staged : Bool) (p : Path) :
    r'.keptEdit old staged p = r.keptEdit old staged p := by
  rw [keptEdit, committedContent_editsOnly h, contentIn_congr h.blobs, keptEdit]

theorem get?_keepContent (r : Repository) (old : Tree) (staged : Bool) (path p : Path) :
    (keepContent old staged r path).edits.get? p =
      (r.edits.get? p).or (if path = p then r.keptEdit old staged p else none) := by
  unfold keepContent
  by_cases hp : path = p
  · subst hp
    cases hedit : r.edits.get? path with
    | some e => simp [Table.contains_of_get? hedit, hedit]
    | none => simp [Table.contains, hedit, get?_setEdit, keptEdit]
  · rw [if_neg hp, Option.or_none]
    split
    · rfl
    · rw [get?_setEdit, if_neg hp]

theorem get?_foldl_keepContent (old : Tree) (staged : Bool) (p : Path) (paths : List Path) (r : Repository) :
    (paths.foldl (keepContent old staged) r).edits.get? p =
      (r.edits.get? p).or (if p ∈ paths then r.keptEdit old staged p else none) := by
  induction paths generalizing r with
  | nil => simp
  | cons path paths ih =>
    rw [List.foldl_cons, ih, get?_keepContent, keptEdit_editsOnly (editsOnly_keepContent old staged r path)]
    cases r.edits.get? p with
    | some e => rfl
    | none =>
      by_cases hpath : path = p
      · subst hpath
        cases r.keptEdit old staged path <;> simp
      · simp [hpath, Ne.symm hpath]

/-- the paths that are kept are those that HEAD holds differently now, so every path gets the edit that it needs -/
theorem get?_keepPaths (r : Repository) (old : Tree) (staged : Bool) (p : Path) :
    ((changedPaths old r.headTree).foldl (keepContent old staged) r).edits.get? p =
      (r.edits.get? p).or (r.keptEdit old staged p) := by
  rw [get?_foldl_keepContent]
  split
  · rfl
  · rename_i hp
    have hheld : old.get? p = r.headTree.get? p := by simpa [mem_changedPaths] using hp
    rw [keptEdit, if_pos (by rw [committedContent, contentIn, contentIn, hheld])]

/-- HEAD has moved away from the old files, and they are all seen as they were -/
theorem fileContent_keepFiles (r : Repository) (old : Tree) (staged : Bool) (p : Path) :
    (keepFiles r old staged).fileContent p = keptContent old r p := by
  have hsame := EditsOnly.foldl (editsOnly_keepContent old staged) (changedPaths old r.headTree) r
  rw [keepFiles, fileContent_settleEdits, fileContent, get?_keepPaths, committedContent_editsOnly hsame, keptContent]
  cases r.edits.get? p with
  | some e => rfl
  | none => by_cases hheld : r.committedContent p = r.contentIn old p <;> simp [keptEdit, hheld]

end RepoTutor.Repo.Repository
