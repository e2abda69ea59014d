/-
Contents of staged files, from the stage into a commit.

A commit stores the content of every staged edit and puts its identifier into the tree. A stored content is found again
under its identifier as long as different contents of the repository have different identifiers (`DistinctBlobIds`,
`get?_storeStaged`), and what was stored before is found as before. So a committed file has the content that was staged
(`committedContent_committed`).
-/
import RepoTutor.Proofs.Transition.FileView
import RepoTutor.Proofs.Transition.History

namespace RepoTutor.Repo

/-- every content in a repository: stored or in a pending edit -/
def Repository.contents (r : Repository) : List String := r.blobs.values ++ r.edits.values.filterMap Edit.content

/-- different contents of a repository have different identifiers -/
def DistinctBlobIds (r : Repository) : Prop :=
  ∀ a ∈ r.contents, ∀ b ∈ r.contents, blobId a = blobId b → a = b

namespace Repository

variable {r : Repository}

theorem mem_contents {text : String} :
    text ∈ r.contents ↔
      (∃ id, r.blobs.get? id = some text) ∨ ∃ p, (r.edits.get? p).map Edit.content = some (some text) := by
  simp only [contents, List.mem_append, List.mem_filterMap, Table.mem_values, Option.map_eq_some_iff]
  refine or_congr_right ⟨fun ⟨e, ⟨p, he⟩, hcontent⟩ => ⟨p, e, he, hcontent⟩, fun ⟨p, e, he, hcontent⟩ => ?_⟩
  exact ⟨e, ⟨p, he⟩, hcontent⟩

/-- a staged content is found under its identifier -/
theorem get?_storeStaged (hw : WellFormed r) (hdistinct : DistinctBlobIds r) {p : Path} {e : Edit} {content : String}
    (he : r.edits.get? p = some e) (hstaged : e.staged = true) (hcontent : e.content = some content) :
    r.storeStaged.blobs.get? (blobId content) = some content := by
  have hmem := content_mem_stagedEdits he hstaged hcontent
  obtain ⟨text, htext⟩ := Table.contains_eq_true.1 ((contains_storeBlobs _ r _).2 (Or.inl ⟨content, hmem, rfl⟩))
  have hid : blobId content = blobId text := hw.storeStaged.blob _ _ htext
  have hknown : text ∈ r.contents := by
    rcases mem_of_storeBlobs _ r htext with h | h
    · obtain ⟨⟨p', _⟩, he', rfl⟩ := List.mem_filterMap.1 h
      obtain ⟨e', he', -, hcontent'⟩ := mem_stagedEdits.1 he'
      exact mem_contents.2 (Or.inr ⟨p', by rw [he', ← hcontent']; rfl⟩)
    · exact mem_contents.2 (Or.inl ⟨_, h⟩)
  have hsame := hdistinct content (mem_contents.2 (Or.inr ⟨p, by rw [he, ← hcontent]; rfl⟩)) text hknown hid
  exact htext.trans (congrArg some hsame.symm)

end Repository

/-- a content or none is told by its identifier -/
theorem DistinctBlobIds.map_inj (h : DistinctBlobIds r) {a b : Option String} (ha : ∀ text ∈ a, text ∈ r.contents)
    (hb : ∀ text ∈ b, text ∈ r.contents) (heq : a.map blobId = b.map blobId) : a = b := by
  cases a with
  | none => exact (Option.map_eq_none_iff.1 heq.symm).symm
  | some text =>
    obtain ⟨text', rfl, hid⟩ := Option.map_eq_some_iff.1 heq.symm
    rw [h text (ha text rfl) text' (hb text' rfl) hid.symm]

/-- what is staged does not matter -/
theorem DistinctBlobIds.markStaged (h : DistinctBlobIds r) (staged : Bool) (which : Path → Bool) :
    DistinctBlobIds (r.markStaged staged which) := by
  intro a ha b hb
  rw [Repository.mem_contents] at ha hb
  simp only [Repository.content_markStaged] at ha hb
  exact h a (Repository.mem_contents.2 ha) b (Repository.mem_contents.2 hb)

end RepoTutor.Repo

namespace RepoTutor.Transition

open Command Repo

theorem committed_headTree (r : Repository) (d : Draft) : (committed r d).headTree = r.stagedTree d.base := by
  have hadds := committed_addsCommit r d
  rw [headTree_of_headId hadds.headId, Repository.treeOf, Option.bind_some, hadds.commits, Table.get?_insert, if_pos rfl]
  rfl

/-- **What is committed of a path**: the content that was staged, or else what HEAD held before -/
theorem committedContent_committed {r : Repository} (hw : WellFormed r) (hdistinct : DistinctBlobIds r) {d : Draft}
    (hbase : d.base = r.headTree) (p : Path) :
    (committed r d).committedContent p =
      match (r.edits.get? p).filter Edit.staged with
      | some e => e.content
      | none => r.committedContent p := by
  have hblobs : (committed r d).blobs = r.storeStaged.blobs := (Repoints.moveHead _ _).blobs
  rw [Repository.committedContent, Repository.contentIn, committed_headTree, hblobs, hbase, Repository.get?_stagedTree]
  cases hedit : (r.edits.get? p).filter Edit.staged with
  | some e =>
    obtain ⟨he, hstaged⟩ := Option.filter_eq_some_iff.1 hedit
    cases hcontent : e.content with
    | none => simp [hcontent]
    | some content => simpa [hcontent] using Repository.get?_storeStaged hw hdistinct he hstaged hcontent
  | none => exact Repository.contentIn_extends (Repository.storeStaged_extends r) (fun blob hblob => hw.tree_blob_stored hblob)

end RepoTutor.Transition
