/-
Text as bytes in UTF-8.

Bytes are read one at a time; a byte that cannot go on with the character begun before it ends that character as
ill-formed and begins anew. So each longest run of bytes that could have become a character counts as one fault.
-/

namespace RepoTutor.Text.Utf8

/-- a character of which some bytes are missing: their number, the range of the next one, and the bits read so far -/
structure Begun where
  owed : Nat
  low : Nat
  high : Nat
  code : Nat

/-- what the first byte of a longer character begins -/
def begin? (b : Nat) : Option Begun :=
  if 0xC2 ≤ b ∧ b ≤ 0xDF then some ⟨1, 0x80, 0xBF, b % 32⟩
  else if b = 0xE0 then some ⟨2, 0xA0, 0xBF, 0⟩
  else if b = 0xED then some ⟨2, 0x80, 0x9F, 13⟩
  else if 0xE1 ≤ b ∧ b ≤ 0xEF then some ⟨2, 0x80, 0xBF, b % 16⟩
  else if b = 0xF0 then some ⟨3, 0x90, 0xBF, 0⟩
  else if 0xF1 ≤ b ∧ b ≤ 0xF3 then some ⟨3, 0x80, 0xBF, b % 8⟩
  else if b = 0xF4 then some ⟨3, 0x80, 0x8F, 4⟩
  else none

/-- a byte between characters: what it gives, and what it begins -/
def start (b : Nat) : List (Option Char) × Option Begun :=
  if b < 0x80 then ([some (Char.ofNat b)], none)
  else
    match begin? b with
    | some s => ([], some s)
    | none => ([none], none)

/-- characters of some bytes, `none` for each fault -/
def decodeFrom : Option Begun → List Nat → List (Option Char)
  | none, [] => []
  | some _, [] => [none]
  | none, b :: rest =>
    let (out, s) := start b
    out ++ decodeFrom s rest
  | some s, b :: rest =>
    if s.low ≤ b ∧ b ≤ s.high then
      let code := s.code * 64 + b % 64
      if s.owed ≤ 1 then some (Char.ofNat code) :: decodeFrom none rest
      else decodeFrom (some ⟨s.owed - 1, 0x80, 0xBF, code⟩) rest
    else
      let (out, s) := start b
      none :: out ++ decodeFrom s rest

/-- the text that bytes stand for, if they have no fault -/
def decode? (bytes : List Nat) : Option String := ((decodeFrom none bytes).mapM id).map String.ofList

/-- the text that bytes stand for, with a mark for each fault -/
def decodeLossy (bytes : List Nat) : String :=
  String.ofList ((decodeFrom none bytes).map (fun c => c.getD '\uFFFD'))

/-- the bytes of a text -/
def encode (s : String) : List Nat := s.toUTF8.toList.map UInt8.toNat

end RepoTutor.Text.Utf8
