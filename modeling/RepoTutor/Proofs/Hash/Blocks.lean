/-
A digest as a fold over the blocks of its message.

`compressAll` takes sixteen words at a time until fewer are left. Cut up beforehand (`blocks`), the same words are
compressed one block after the other (`compressAll_eq_foldl`), and the bytes of a text are the codes of its characters in
turn (`utf8Bytes_eq`). In this form (`charDigest`) the digest of a given text can be evaluated by the kernel, and so can the
identifier of a given commit (`Commit.make_id`).

Whatever the message is, its digest consists of hexadecimal digits (`mem_sha256`), and is not empty.
-/
import RepoTutor.Repo.State

namespace RepoTutor

namespace Hash

/-- the first `n` blocks of sixteen words -/
def blocks : Nat → List UInt32 → List (List UInt32)
  | 0, _ => []
  | n + 1, words => words.take 16 :: blocks n (words.drop 16)

theorem compressAll_eq_foldl (s : Chain) (words : List UInt32) :
    compressAll s words = (blocks (words.length / 16) words).foldl compress s := by
  fun_induction compressAll s words with
  | case1 s words hshort =>
    rw [Nat.div_eq_of_lt hshort]
    rfl
  | case2 s words hlong ih =>
    have hcount : words.length / 16 = (words.length - 16) / 16 + 1 := by omega
    rw [ih, List.length_drop, hcount]
    rfl

/-- the digits of a chain -/
def Chain.digits : Chain → List Char
  | ⟨a, b, c, d, e, f, g, h⟩ => [a, b, c, d, e, f, g, h].flatMap (fun w => hexOf 8 w.toNat)

theorem sha256_eq_foldl (message : List UInt8) :
    sha256 message =
      let words := wordsOf (pad message)
      String.ofList ((blocks (words.length / 16) words).foldl compress Chain.start).digits := by
  rw [sha256, compressAll_eq_foldl]
  rfl

/-! ## Digits -/

theorem hexDigit_mem (n : Nat) : hexDigit n ∈ "0123456789abcdef".toList := by
  rw [hexDigit, List.getD_eq_getElem?_getD]
  cases hdigit : "0123456789abcdef".toList[n]? with
  | none => simp
  | some c => exact List.mem_of_getElem? hdigit

theorem mem_sha256 {message : List UInt8} {c : Char} (h : c ∈ (sha256 message).toList) :
    c ∈ "0123456789abcdef".toList := by
  rw [sha256, String.toList_ofList] at h
  obtain ⟨w, -, h⟩ := List.mem_flatMap.1 h
  obtain ⟨i, -, rfl⟩ := List.mem_map.1 h
  exact hexDigit_mem _

theorem sha256_ne_empty (message : List UInt8) : sha256 message ≠ "" := by
  intro h
  have hlength := congrArg (fun s => s.toList.length) h
  simp [sha256, hexOf] at hlength

end Hash

namespace Repo

theorem byteList_eq (bytes : ByteArray) : bytes.toList = bytes.data.toList := by
  have hloop : ∀ i before, ByteArray.toList.loop bytes i before = before.reverse ++ bytes.data.toList.drop i := by
    intro i before
    fun_induction ByteArray.toList.loop bytes i before with
    | case1 i before hi ih =>
      have hlength : i < bytes.data.toList.length := by simpa using hi
      rw [ih, List.drop_eq_getElem_cons hlength]
      simp [ByteArray.get!, getElem!_pos, hi]
    | case2 i before hi => rw [List.drop_eq_nil_of_le (by simpa using hi), List.append_nil]
  exact hloop 0 []

theorem utf8Bytes_eq (s : String) : utf8Bytes s = s.toList.flatMap String.utf8EncodeChar := by
  rw [utf8Bytes, byteList_eq, String.toUTF8, ← String.utf8Encode_toList]
  simp [List.utf8Encode]

/-- the digest of a text, computed from its characters -/
def charDigest (domain : String) (text : List Char) : String :=
  let words := Hash.wordsOf (Hash.pad ((domain.toList ++ text).flatMap String.utf8EncodeChar))
  String.ofList ((Hash.blocks (words.length / 16) words).foldl Hash.compress Hash.Chain.start).digits

theorem digest_ofList (domain : String) (text : List Char) : digest domain (String.ofList text) = charDigest domain text := by
  rw [digest, Hash.sha256_eq_foldl, utf8Bytes_eq, String.toList_append, String.toList_ofList, charDigest]

theorem Commit.make_id (parents : List CommitId) (author : String) (timestamp : Nat) (message : String) (tree : Tree) :
    (Commit.make parents author timestamp message tree).id =
      charDigest "gitdojo-commit-v1\n" (Commit.body parents author timestamp message tree).canonical.chars :=
  digest_ofList _ _

end Repo

end RepoTutor
