/-
The SHA-256 digest of a list of bytes, written as 64 lowercase hexadecimal digits.

The message is padded to whole blocks of sixty-four bytes; each block is expanded to sixty-four words and compressed
into eight chaining words.
-/

namespace RepoTutor.Hash

/-- round constants: the first 32 bits of the fractional parts of the cube roots of the first 64 primes -/
def roundConstants : List UInt32 := [
  0x428a2f98, 0x71374491, 0xb5c0fbcf, 0xe9b5dba5, 0x3956c25b, 0x59f111f1, 0x923f82a4, 0xab1c5ed5,
  0xd807aa98, 0x12835b01, 0x243185be, 0x550c7dc3, 0x72be5d74, 0x80deb1fe, 0x9bdc06a7, 0xc19bf174,
  0xe49b69c1, 0xefbe4786, 0x0fc19dc6, 0x240ca1cc, 0x2de92c6f, 0x4a7484aa, 0x5cb0a9dc, 0x76f988da,
  0x983e5152, 0xa831c66d, 0xb00327c8, 0xbf597fc7, 0xc6e00bf3, 0xd5a79147, 0x06ca6351, 0x14292967,
  0x27b70a85, 0x2e1b2138, 0x4d2c6dfc, 0x53380d13, 0x650a7354, 0x766a0abb, 0x81c2c92e, 0x92722c85,
  0xa2bfe8a1, 0xa81a664b, 0xc24b8b70, 0xc76c51a3, 0xd192e819, 0xd6990624, 0xf40e3585, 0x106aa070,
  0x19a4c116, 0x1e376c08, 0x2748774c, 0x34b0bcb5, 0x391c0cb3, 0x4ed8aa4a, 0x5b9cca4f, 0x682e6ff3,
  0x748f82ee, 0x78a5636f, 0x84c87814, 0x8cc70208, 0x90befffa, 0xa4506ceb, 0xbef9a3f7, 0xc67178f2]

/-- the eight chaining words -/
structure Chain where
  a : UInt32
  b : UInt32
  c : UInt32
  d : UInt32
  e : UInt32
  f : UInt32
  g : UInt32
  h : UInt32

/-- first 32 bits of the fractional parts of the square roots of the first eight primes -/
def Chain.start : Chain :=
  ⟨0x6a09e667, 0xbb67ae85, 0x3c6ef372, 0xa54ff53a, 0x510e527f, 0x9b05688c, 0x1f83d9ab, 0x5be0cd19⟩

def rotateRight (x : UInt32) (n : UInt32) : UInt32 := (x >>> n) ||| (x <<< (32 - n))

/-- big-endian words of a list of bytes; an incomplete word at the end is dropped -/
def wordsOf : List UInt8 → List UInt32
  | b₀ :: b₁ :: b₂ :: b₃ :: rest =>
    ((b₀.toUInt32 <<< 24) ||| (b₁.toUInt32 <<< 16) ||| (b₂.toUInt32 <<< 8) ||| b₃.toUInt32) :: wordsOf rest
  | _ => []

/-- one word of the message schedule from the words before it, latest first -/
def scheduleWord (before : List UInt32) : UInt32 :=
  let w (i : Nat) : UInt32 := before.getD i 0
  let s₀ := rotateRight (w 14) 7 ^^^ rotateRight (w 14) 18 ^^^ (w 14 >>> 3)
  let s₁ := rotateRight (w 1) 17 ^^^ rotateRight (w 1) 19 ^^^ (w 1 >>> 10)
  w 15 + s₀ + w 6 + s₁

/-- extend the schedule, latest word first, by `n` words -/
def extendSchedule : Nat → List UInt32 → List UInt32
  | 0, before => before
  | n + 1, before => extendSchedule n (scheduleWord before :: before)

/-- sixty-four schedule words of a block of sixteen -/
def schedule (block : List UInt32) : List UInt32 :=
  (extendSchedule 48 block.reverse).reverse

/-- one round with its constant and schedule word -/
def round (s : Chain) (kw : UInt32 × UInt32) : Chain :=
  let big₁ := rotateRight s.e 6 ^^^ rotateRight s.e 11 ^^^ rotateRight s.e 25
  let choice := (s.e &&& s.f) ^^^ ((~~~ s.e) &&& s.g)
  let t₁ := s.h + big₁ + choice + kw.1 + kw.2
  let big₀ := rotateRight s.a 2 ^^^ rotateRight s.a 13 ^^^ rotateRight s.a 22
  let majority := (s.a &&& s.b) ^^^ (s.a &&& s.c) ^^^ (s.b &&& s.c)
  ⟨t₁ + (big₀ + majority), s.a, s.b, s.c, s.d + t₁, s.e, s.f, s.g⟩

/-- the chain after one block of sixteen words -/
def compress (s : Chain) (block : List UInt32) : Chain :=
  let t := (roundConstants.zip (schedule block)).foldl round s
  ⟨s.a + t.a, s.b + t.b, s.c + t.c, s.d + t.d, s.e + t.e, s.f + t.f, s.g + t.g, s.h + t.h⟩

/-- `width` big-endian bytes of a number -/
def bigEndian (width n : Nat) : List UInt8 :=
  (List.range width).map (fun i => UInt8.ofNat (n / Nat.pow 256 (width - 1 - i)))

/-- the message, a set bit, zeros and the length in bits, in whole blocks of sixty-four bytes -/
def pad (message : List UInt8) : List UInt8 :=
  let zeros := (119 - message.length % 64) % 64
  message ++ (0x80 :: List.replicate zeros 0) ++ bigEndian 8 (message.length * 8)

/-- compress block after block -/
def compressAll (s : Chain) (words : List UInt32) : Chain :=
  if _short : words.length < 16 then s
  else compressAll (compress s (words.take 16)) (words.drop 16)
termination_by words.length
decreasing_by simp only [List.length_drop]; omega

def hexDigit (n : Nat) : Char := "0123456789abcdef".toList.getD n '0'

/-- the lowest `width` hexadecimal digits of a number -/
def hexOf (width n : Nat) : List Char :=
  (List.range width).map (fun i => hexDigit (n / Nat.pow 16 (width - 1 - i) % 16))

/-- the digest as hexadecimal text -/
def sha256 (message : List UInt8) : String :=
  let s := compressAll Chain.start (wordsOf (pad message))
  String.ofList ([s.a, s.b, s.c, s.d, s.e, s.f, s.g, s.h].flatMap (fun w => hexOf 8 w.toNat))

end RepoTutor.Hash
