/-
A repository is read back from its JSON text.

The records of a repository are written with all the members that reading asks for, so their shape is found again
(`ofShape?_toJson`). A text with numbers of 64 bits is read back as the value it was written from, and a well-formed
repository passes the check after reading: it comes back as it was (`ofText_compact`).
-/
import RepoTutor.Proofs.Json.RoundTrip
import RepoTutor.Proofs.Repo.WellFormed
import RepoTutor.Repo.Codec

namespace RepoTutor.Repo

open Json Json.Value

/-! ## Shapes -/

theorem texts?_ofTable (t : Table String) : texts? (ofTable .str t) = some t := tableOf?_ofTable (fun _ _ _ => rfl)

theorem Commit.ofJson?_toJson {c : Commit} (h : c.timestamp < wordCount 64) : Commit.ofJson? c.toJson = some c := by
  simp [ofJson?, toJson, record?, occurrences, first?, Record.required, listOf?_ofStrings, nat64?_ofNat h,
    texts?_ofTable, str?]

theorem Head.ofJson?_toJson (h : Head) : Head.ofJson? h.toJson = some h := by
  cases h <;>
    simp [ofJson?, toJson, record?, occurrences, first?, Record.required, plainVariant?, str?]

theorem Edit.ofJson?_toJson (e : Edit) : Edit.ofJson? e.toJson = some e := by
  obtain ⟨content, staged⟩ := e
  cases content <;>
    simp [ofJson?, toJson, record?, occurrences, first?, Record.required, Record.optional, ofOption, str?, bool?]

/-! ## Texts -/

theorem Commit.readable_toJson (depth : Nat) {c : Commit} (h : c.timestamp < wordCount 64) :
    Readable (depth + 2) c.toJson := by
  refine .obj ?_
  simp only [List.forall_mem_cons, List.not_mem_nil, IsEmpty.forall_iff, implies_true, and_true]
  exact ⟨.str _ _, readable_ofStrings depth _, .str _ _, .nat _ h, .str _ _, readable_ofTable (fun _ _ _ => .str _ _)⟩

theorem Head.readable_toJson (depth : Nat) (h : Head) : Readable (depth + 1) h.toJson := by
  have hmembers : ∀ kind target, Readable (depth + 1) (obj [("kind", .str kind), ("target", .str target)]) := by
    intro kind target
    refine .obj ?_
    simp only [List.forall_mem_cons, List.not_mem_nil, IsEmpty.forall_iff, implies_true, and_true]
    exact ⟨.str _ _, .str _ _⟩
  cases h with
  | attached branch => exact hmembers _ _
  | detached id => exact hmembers _ _

theorem Edit.readable_toJson (depth : Nat) (e : Edit) : Readable (depth + 1) e.toJson := by
  obtain ⟨content, staged⟩ := e
  refine .obj ?_
  simp only [List.forall_mem_cons, List.not_mem_nil, IsEmpty.forall_iff, implies_true, and_true]
  cases content with
  | none => exact ⟨.null _, .bool _ _⟩
  | some text => exact ⟨.str _ _, .bool _ _⟩

/-- the clock and all timestamps are 64-bit words -/
structure FitsWords (r : Repository) : Prop where
  clock : r.clock < wordCount 64
  timestamp : ∀ id c, r.commits.get? id = some c → c.timestamp < wordCount 64

namespace Repository

variable {r : Repository}

theorem ofShape?_toJson (h : FitsWords r) : ofShape? r.toJson = some r := by
  have hcommits : tableOf? Commit.ofJson? (ofTable Commit.toJson r.commits) = some r.commits :=
    tableOf?_ofTable (fun id c hc => Commit.ofJson?_toJson (h.timestamp id c hc))
  have hedits : tableOf? Edit.ofJson? (ofTable Edit.toJson r.edits) = some r.edits :=
    tableOf?_ofTable (fun _ e _ => Edit.ofJson?_toJson e)
  obtain ⟨commits, blobs, branches, head, edits, mergeHead, clock⟩ := r
  cases mergeHead <;>
    simp [ofShape?, toJson, record?, occurrences, first?, Record.required, Record.defaulted, Record.absentable, hcommits,
      hedits, texts?_ofTable, Head.ofJson?_toJson, nat64?_ofNat h.clock, str?]

theorem readable_toJson (depth : Nat) (h : FitsWords r) : Readable (depth + 4) r.toJson := by
  have hcommits : Readable (depth + 3) (ofTable Commit.toJson r.commits) :=
    readable_ofTable (fun id c hc => Commit.readable_toJson depth (h.timestamp id c hc))
  have hedits : Readable (depth + 3) (ofTable Edit.toJson r.edits) :=
    readable_ofTable (fun _ e _ => Edit.readable_toJson _ e)
  have htexts : ∀ t, Readable (depth + 3) (ofTable .str t) := fun t => readable_ofTable (fun _ _ _ => .str _ _)
  obtain ⟨commits, blobs, branches, head, edits, mergeHead, clock⟩ := r
  cases mergeHead with
  | none =>
    refine .obj ?_
    simp only [List.forall_mem_append, List.forall_mem_cons, List.not_mem_nil, IsEmpty.forall_iff, implies_true,
      and_true]
    exact ⟨⟨hcommits, htexts _, htexts _, Head.readable_toJson _ _, hedits⟩, .nat _ h.clock⟩
  | some id =>
    refine .obj ?_
    simp only [List.forall_mem_append, List.forall_mem_cons, List.not_mem_nil, IsEmpty.forall_iff, implies_true,
      and_true]
    exact ⟨⟨⟨hcommits, htexts _, htexts _, Head.readable_toJson _ _, hedits⟩, .str _ id⟩, .nat _ h.clock⟩

/-- **A well-formed repository is read back from its text as it was.** -/
theorem ofText_compact (hw : WellFormed r) (h : FitsWords r) : ofText r.toJson.compact = .ok r := by
  rw [ofText, parse?_compact (readable_toJson 123 h)]
  show ofJson r.toJson = .ok r
  rw [ofJson, ofShape?_toJson h]
  dsimp only
  rw [check_eq_ok.2 hw]

end Repository

end RepoTutor.Repo
