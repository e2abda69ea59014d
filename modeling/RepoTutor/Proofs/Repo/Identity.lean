/-
What the identifiers of commits and contents stand for.

An identifier is the digest of bytes that begin with the kind of the object (`Commit.computedId_eq`, `blobId_eq`). The bytes
of a commit are the canonical text of its body, so they are equal for two commits exactly when parents, author, time,
message and tree are, and the bytes of a commit are never those of a content (`hashed_bytes_tell_apart`). Whether two
digests can be equal all the same is a question about the digest alone.
-/
import RepoTutor.Proofs.Hash.Blocks
import RepoTutor.Proofs.Json.CanonicalText

namespace RepoTutor.Repo

open Json Json.Value

theorem utf8Bytes_inj {s t : String} : utf8Bytes s = utf8Bytes t ↔ s = t := by
  rw [utf8Bytes, utf8Bytes, byteList_eq, byteList_eq, Array.toList_inj, ← ByteArray.ext_iff]
  exact String.toByteArray_inj

/-! ## Hashed bytes -/

/-- the bytes that a digest is taken of -/
def hashedBytes (domain text : String) : List UInt8 := utf8Bytes (domain ++ text)

/-- the bytes that a commit's identifier is the digest of -/
def Commit.hashedBody (c : Commit) : List UInt8 :=
  hashedBytes "gitdojo-commit-v1\n" (canonicalText (Commit.body c.parents c.author c.timestamp c.message c.tree))

/-- the bytes that a content's identifier is the digest of -/
def hashedContent (content : String) : List UInt8 := hashedBytes "gitdojo-blob-v1\n" content

theorem Commit.computedId_eq (c : Commit) : c.computedId = Hash.sha256 c.hashedBody := rfl

theorem blobId_eq (content : String) : blobId content = Hash.sha256 (hashedContent content) := rfl

theorem hashedBytes_inj {domain s t : String} : hashedBytes domain s = hashedBytes domain t ↔ s = t := by
  rw [hashedBytes, hashedBytes, utf8Bytes_inj]
  constructor
  · intro h
    have hchars := congrArg String.toList h
    rw [String.toList_append, String.toList_append] at hchars
    exact String.toList_injective (List.append_cancel_left hchars)
  · rintro rfl
    rfl

/-- the kinds of objects are told apart by their ninth character -/
theorem domains_apart (s t : String) : "gitdojo-commit-v1\n" ++ s ≠ "gitdojo-blob-v1\n" ++ t := by
  intro h
  have hchars := congrArg String.toList h
  simp only [String.toList_append] at hchars
  have hninth := congrArg (fun cs => cs[8]?) hchars
  simp at hninth

/-! ## Bodies of commits -/

theorem Commit.floatFree_body (c : Commit) :
    FloatFree (Commit.body c.parents c.author c.timestamp c.message c.tree) := by
  simp [Commit.body]

/-- bodies are equal when their five parts are -/
theorem Commit.same_body {c d : Commit} :
    Same (Commit.body c.parents c.author c.timestamp c.message c.tree)
        (Commit.body d.parents d.author d.timestamp d.message d.tree) ↔
      c.parents = d.parents ∧ c.author = d.author ∧ c.timestamp = d.timestamp ∧ c.message = d.message
        ∧ c.tree = d.tree := by
  constructor
  · intro h
    have hparents := same_of_member? h "parents" rfl rfl
    have hauthor := same_of_member? h "author" rfl rfl
    have htimestamp := same_of_member? h "timestamp" rfl rfl
    have hmessage := same_of_member? h "message" rfl rfl
    have htree := same_of_member? h "tree" rfl rfl
    refine ⟨same_ofStrings.1 hparents, ?_, same_ofNat.1 htimestamp, ?_, same_textTable.1 htree⟩
    · exact (str.inj (same_str.1 hauthor)).symm
    · exact (str.inj (same_str.1 hmessage)).symm
  · rintro ⟨hparents, hauthor, htimestamp, hmessage, htree⟩
    rw [hparents, hauthor, htimestamp, hmessage, htree]
    exact same_refl _

/-- **What is hashed tells contents apart.** Canonical texts are equal for equal values without doubles and for no others.
So two commits are hashed alike exactly when they have the same parents in the same order, author, time, message and
tree, and no commit is hashed like a content. Identifiers are the digests of just these bytes. -/
theorem hashed_bytes_tell_apart :
    (∀ v w : Value, FloatFree v → FloatFree w →
        (utf8Bytes (canonicalText v) = utf8Bytes (canonicalText w) ↔ Same v w))
      ∧ (∀ c d : Commit, c.hashedBody = d.hashedBody ↔
          c.parents = d.parents ∧ c.author = d.author ∧ c.timestamp = d.timestamp ∧ c.message = d.message
            ∧ c.tree = d.tree)
      ∧ (∀ (c : Commit) (content : String), c.hashedBody ≠ hashedContent content)
      ∧ (∀ c : Commit, c.computedId = Hash.sha256 c.hashedBody)
      ∧ ∀ content, blobId content = Hash.sha256 (hashedContent content) := by
  refine ⟨?_, ?_, ?_, Commit.computedId_eq, blobId_eq⟩
  · intro v w hv hw
    rw [utf8Bytes_inj]
    exact canonicalText_eq_iff hv hw
  · intro c d
    rw [Commit.hashedBody, Commit.hashedBody, hashedBytes_inj, canonicalText_eq_iff c.floatFree_body d.floatFree_body]
    exact Commit.same_body
  · intro c content h
    exact domains_apart _ _ (utf8Bytes_inj.1 h)

/-- members in another order make no difference, a comma inside a text does not end it -/
theorem reordered_members_hash_alike :
    let v : Value := .obj [("z", ofNat 1), ("a", .obj [("y", .num (.whole (-2))), ("b", .arr [])])]
    let w : Value := .obj [("a", .obj [("b", .arr []), ("y", .num (.whole (-2)))]), ("z", ofNat 1)]
    let joined : Value := .arr [.str "a\",\"b"]
    let separate : Value := .arr [.str "a", .str "b"]
    FloatFree v ∧ FloatFree w ∧ FloatFree joined ∧ FloatFree separate
      ∧ utf8Bytes (canonicalText v) = utf8Bytes (canonicalText w)
      ∧ utf8Bytes (canonicalText joined) ≠ utf8Bytes (canonicalText separate) := by
  intro v w joined separate
  have hv : FloatFree v := by simp [v]
  have hw : FloatFree w := by simp [w]
  have hjoined : FloatFree joined := by simp [joined]
  have hseparate : FloatFree separate := by simp [separate]
  have hsame : Same v w := canonical_eq_iff.1 rfl
  have happart : ¬Same joined separate := by simp [joined, separate, same_arr]
  obtain ⟨htexts, -⟩ := hashed_bytes_tell_apart
  refine ⟨hv, hw, hjoined, hseparate, (htexts v w hv hw).2 hsame, ?_⟩
  intro h
  exact happart ((htexts joined separate hjoined hseparate).1 h)

end RepoTutor.Repo
