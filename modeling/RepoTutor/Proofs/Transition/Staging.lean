/-
What is staged, in a tree and in the store of contents.

A commit puts the staged edits into a tree and stores their contents. Path by path, the tree holds what is staged and else
what it held before (`get?_stagedTree`). Storing contents changes nothing but the stored contents (`storeBlobs_eq`): what
was stored stays under its identifier (`storeBlobs_extends`), and what is new is one of the contents
(`mem_of_storeBlobs`).
-/
import RepoTutor.Proofs.Data.Membership
import RepoTutor.Transition.Edits

namespace RepoTutor.Repo.Repository

/-! ## Staged edits -/

theorem stagedEdits_eq (r : Repository) :
    r.stagedEdits = (r.edits.filterMap (fun _ e => if e.staged then some e.content else none)).entries := by
  simp only [stagedEdits, Table.filterMap]
  induction r.edits.entries with
  | nil => rfl
  | cons e l ih =>
    cases h : e.2.staged with
    | true => simp [h, ih]
    | false => simp [h, ih]

theorem mem_stagedEdits {r : Repository} {p : Path} {content : Option String} :
    (p, content) ∈ r.stagedEdits ↔ ∃ e, r.edits.get? p = some e ∧ e.staged = true ∧ e.content = content := by
  rw [stagedEdits_eq, ← Table.get?_eq_some_iff, Table.get?_filterMap, Option.bind_eq_some_iff]
  simp only [Option.ite_none_right_eq_some, Option.some.injEq]

/-- staging ascending edits into a tree: each path takes its edit, if it has one -/
theorem get?_foldl_stageInTree {edits : List (Path × Option String)} (hascending : Ascending edits) (tree : Tree)
    (p : Path) :
    (edits.foldl stageInTree tree).get? p =
      match Table.find p edits with
      | some content => content.map blobId
      | none => tree.get? p := by
  induction edits generalizing tree with
  | nil => rfl
  | cons e edits ih =>
    obtain ⟨path, content⟩ := e
    have hrest := List.pairwise_cons.1 hascending
    have hstaged : (stageInTree tree (path, content)).get? p = if path = p then content.map blobId else tree.get? p := by
      cases content <;> simp [stageInTree]
    rw [List.foldl_cons, ih hrest.2, hstaged, Table.find]
    by_cases hp : path = p
    · subst hp
      -- the rest lies after this path
      have hnone : Table.find path edits = none :=
        Table.find_eq_none (fun e he heq => String.lt_irrefl _ (heq ▸ hrest.1 e he))
      simp [hnone]
    · simp [hp]

theorem get?_stagedTree (r : Repository) (tree : Tree) (p : Path) :
    (r.stagedTree tree).get? p =
      match (r.edits.get? p).filter Edit.staged with
      | some e => e.content.map blobId
      | none => tree.get? p := by
  have hfind : Table.find p r.stagedEdits = ((r.edits.get? p).filter Edit.staged).map Edit.content := by
    rw [stagedEdits_eq]
    show Table.get? _ p = _
    rw [Table.get?_filterMap]
    cases r.edits.get? p with
    | none => rfl
    | some e => cases h : e.staged <;> simp [Option.filter_some, h]
  have hascending : Ascending r.stagedEdits := stagedEdits_eq r ▸ Table.ascending _
  rw [stagedTree, get?_foldl_stageInTree hascending, hfind]
  cases (r.edits.get? p).filter Edit.staged <;> rfl

theorem content_mem_stagedEdits {r : Repository} {p : Path} {e : Edit} {content : String}
    (he : r.edits.get? p = some e) (hstaged : e.staged = true) (hcontent : e.content = some content) :
    content ∈ r.stagedEdits.filterMap (·.2) :=
  List.mem_filterMap.2 ⟨(p, some content), mem_stagedEdits.2 ⟨e, he, hstaged, hcontent⟩, rfl⟩

/-! ## Stored contents -/

theorem storeBlob_eq (r : Repository) (content : String) :
    r.storeBlob content = { r with blobs := (r.storeBlob content).blobs } := by
  unfold storeBlob
  split <;> rfl

theorem get?_storeBlob (r : Repository) (content : String) (id : BlobId) :
    (r.storeBlob content).blobs.get? id =
      if blobId content = id ∧ r.blobs.contains id = false then some content else r.blobs.get? id := by
  unfold storeBlob
  split
  · rename_i hstored
    rw [if_neg]
    rintro ⟨rfl, hnew⟩
    rw [hstored] at hnew
    cases hnew
  · rename_i hnew
    rw [Table.get?_insert]
    by_cases hid : blobId content = id
    · subst hid
      simp [hnew]
    · simp [hid]

theorem contains_storeBlob (r : Repository) (content : String) (id : BlobId) :
    (r.storeBlob content).blobs.contains id = true ↔ blobId content = id ∨ r.blobs.contains id = true := by
  rw [Table.contains, get?_storeBlob]
  split
  · rename_i hnew
    simp [hnew.1]
  · rename_i hold
    refine ⟨Or.inr, fun h => ?_⟩
    rcases h with rfl | h
    · by_contra hnew
      exact hold ⟨rfl, by simpa [Table.contains] using hnew⟩
    · exact h

theorem storeBlobs_eq (contents : List String) (r : Repository) :
    contents.foldl storeBlob r = { r with blobs := (contents.foldl storeBlob r).blobs } := by
  induction contents generalizing r with
  | nil => rfl
  | cons content contents ih =>
    rw [List.foldl_cons, ih (r.storeBlob content)]
    rw [storeBlob_eq]

theorem contains_storeBlobs (contents : List String) (r : Repository) (id : BlobId) :
    (contents.foldl storeBlob r).blobs.contains id = true ↔
      (∃ content ∈ contents, blobId content = id) ∨ r.blobs.contains id = true := by
  induction contents generalizing r with
  | nil => simp
  | cons content contents ih =>
    rw [List.foldl_cons, ih, contains_storeBlob]
    simp only [List.mem_cons, exists_eq_or_imp, or_left_comm, or_assoc]

theorem storeBlobs_extends (contents : List String) (r : Repository) :
    Table.Extends r.blobs (contents.foldl storeBlob r).blobs := by
  induction contents generalizing r with
  | nil => exact Table.Extends.refl _
  | cons content contents ih =>
    refine Table.Extends.trans (fun id text hid => ?_) (ih _)
    rw [get?_storeBlob, if_neg]
    · exact hid
    · rintro ⟨-, hnew⟩
      rw [Table.contains_of_get? hid] at hnew
      cases hnew

/-- what is stored afterwards was stored before or is one of the contents -/
theorem mem_of_storeBlobs (contents : List String) (r : Repository) {id : BlobId} {text : String}
    (h : (contents.foldl storeBlob r).blobs.get? id = some text) : text ∈ contents ∨ r.blobs.get? id = some text := by
  induction contents generalizing r with
  | nil => exact Or.inr h
  | cons content contents ih =>
    rcases ih _ h with h | h
    · exact Or.inl (List.mem_cons_of_mem _ h)
    · rw [get?_storeBlob] at h
      split at h
      · cases h
        exact Or.inl List.mem_cons_self
      · exact Or.inr h

theorem storeStaged_eq (r : Repository) : r.storeStaged = { r with blobs := r.storeStaged.blobs } := storeBlobs_eq _ r

theorem storeStaged_commits (r : Repository) : r.storeStaged.commits = r.commits := by rw [storeStaged_eq]

theorem storeStaged_edits (r : Repository) : r.storeStaged.edits = r.edits := by rw [storeStaged_eq]

theorem storeStaged_extends (r : Repository) : Table.Extends r.blobs r.storeStaged.blobs := storeBlobs_extends _ r

/-- every content of a tree with staged edits is stored with them, if the tree's were stored before -/
theorem stagedTree_stored {r : Repository} {tree : Tree}
    (htree : ∀ path blob, tree.get? path = some blob → r.blobs.contains blob = true) (path : Path) (blob : BlobId)
    (h : (r.stagedTree tree).get? path = some blob) : r.storeStaged.blobs.contains blob = true := by
  refine (contains_storeBlobs _ r blob).2 ?_
  rw [get?_stagedTree] at h
  split at h
  · rename_i e he
    obtain ⟨he, hstaged⟩ := Option.filter_eq_some_iff.1 he
    obtain ⟨content, hcontent, hblob⟩ := Option.map_eq_some_iff.1 h
    exact Or.inl ⟨content, content_mem_stagedEdits he hstaged hcontent, hblob⟩
  · exact Or.inr (htree path blob h)

end RepoTutor.Repo.Repository
