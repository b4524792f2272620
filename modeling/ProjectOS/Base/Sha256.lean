import ProjectOS.Base.Text

/-! `hashlib.sha256(text.encode("utf-8")).hexdigest()`. -/
namespace ProjectOS.Base.Sha256

def roundConstants : List UInt32 := [
  0x428a2f98, 0x71374491, 0xb5c0fbcf, 0xe9b5dba5, 0x3956c25b, 0x59f111f1, 0x923f82a4, 0xab1c5ed5,
  0xd807aa98, 0x12835b01, 0x243185be, 0x550c7dc3, 0x72be5d74, 0x80deb1fe, 0x9bdc06a7, 0xc19bf174,
  0xe49b69c1, 0xefbe4786, 0x0fc19dc6, 0x240ca1cc, 0x2de92c6f, 0x4a7484aa, 0x5cb0a9dc, 0x76f988da,
  0x983e5152, 0xa831c66d, 0xb00327c8, 0xbf597fc7, 0xc6e00bf3, 0xd5a79147, 0x06ca6351, 0x14292967,
  0x27b70a85, 0x2e1b2138, 0x4d2c6dfc, 0x53380d13, 0x650a7354, 0x766a0abb, 0x81c2c92e, 0x92722c85,
  0xa2bfe8a1, 0xa81a664b, 0xc24b8b70, 0xc76c51a3, 0xd192e819, 0xd6990624, 0xf40e3585, 0x106aa070,
  0x19a4c116, 0x1e376c08, 0x2748774c, 0x34b0bcb5, 0x391c0cb3, 0x4ed8aa4a, 0x5b9cca4f, 0x682e6ff3,
  0x748f82ee, 0x78a5636f, 0x84c87814, 0x8cc70208, 0x90befffa, 0xa4506ceb, 0xbef9a3f7, 0xc67178f2]

structure Chain where
  a : UInt32
  b : UInt32
  c : UInt32
  d : UInt32
  e : UInt32
  f : UInt32
  g : UInt32
  h : UInt32

def initialChain : Chain :=
  ⟨0x6a09e667, 0xbb67ae85, 0x3c6ef372, 0xa54ff53a, 0x510e527f, 0x9b05688c, 0x1f83d9ab, 0x5be0cd19⟩

def rotateRight (x n : UInt32) : UInt32 := (x >>> n) ||| (x <<< (32 - n))

/-- Message words, newest first; each new word reads the sixteen before it. -/
def extend : Nat → List UInt32 → List UInt32
  | 0, words => words
  | n + 1, words =>
      let w15 := words.getD 14 0
      let w2 := words.getD 1 0
      let s0 := rotateRight w15 7 ^^^ rotateRight w15 18 ^^^ (w15 >>> 3)
      let s1 := rotateRight w2 17 ^^^ rotateRight w2 19 ^^^ (w2 >>> 10)
      extend n ((words.getD 15 0 + s0 + words.getD 6 0 + s1) :: words)

def round (s : Chain) (key word : UInt32) : Chain :=
  let s1 := rotateRight s.e 6 ^^^ rotateRight s.e 11 ^^^ rotateRight s.e 25
  let choice := (s.e &&& s.f) ^^^ (~~~s.e &&& s.g)
  let t1 := s.h + s1 + choice + key + word
  let s0 := rotateRight s.a 2 ^^^ rotateRight s.a 13 ^^^ rotateRight s.a 22
  let majority := (s.a &&& s.b) ^^^ (s.a &&& s.c) ^^^ (s.b &&& s.c)
  ⟨t1 + s0 + majority, s.a, s.b, s.c, s.d + t1, s.e, s.f, s.g⟩

def compress (s : Chain) (block : List UInt32) : Chain :=
  let words := (extend 48 block.reverse).reverse
  let t := (roundConstants.zip words).foldl (fun t kw => round t kw.1 kw.2) s
  ⟨s.a + t.a, s.b + t.b, s.c + t.c, s.d + t.d, s.e + t.e, s.f + t.f, s.g + t.g, s.h + t.h⟩

def bigEndian (width value : Nat) : List UInt8 :=
  (List.range width).reverse.map fun i => UInt8.ofNat (value / 256 ^ i)

def pad (message : List UInt8) : List UInt8 :=
  message ++ [0x80] ++ List.replicate ((119 - message.length % 64) % 64) 0 ++
    bigEndian 8 (8 * message.length)

def word (bytes : List UInt8) : UInt32 :=
  bytes.foldl (fun acc byte => (acc <<< 8) ||| byte.toUInt32) 0

def chunks (size : Nat) : Nat → List α → List (List α)
  | 0, _ => []
  | n + 1, xs => xs.take size :: chunks size n (xs.drop size)

def hash (message : List UInt8) : List UInt8 :=
  let padded := pad message
  let words := (chunks 4 (padded.length / 4) padded).map word
  let s := (chunks 16 (words.length / 16) words).foldl compress initialChain
  [s.a, s.b, s.c, s.d, s.e, s.f, s.g, s.h].flatMap fun x => bigEndian 4 x.toNat

def hexDigit (n : Nat) : Char := if n < 10 then Char.ofNat (48 + n) else Char.ofNat (87 + n)

def hexdigest (bytes : List UInt8) : String :=
  String.ofList (bytes.flatMap fun b => [hexDigit (b.toNat / 16), hexDigit (b.toNat % 16)])

def sha256 (text : String) : String := hexdigest (hash text.toUTF8.toList)

@[simp] theorem length_bigEndian (width value : Nat) : (bigEndian width value).length = width := by
  simp [bigEndian]

/-- Padding completes a block of sixty-four bytes. -/
theorem length_pad (message : List UInt8) : (pad message).length % 64 = 0 := by
  simp only [pad, List.length_append, List.length_replicate, List.length_cons, List.length_nil,
    length_bigEndian]
  omega

theorem length_hash (message : List UInt8) : (hash message).length = 32 := by
  simp [hash]

/-- A digest has sixty-four hexadecimal digits. -/
theorem length_sha256 (text : String) : (sha256 text).toList.length = 64 := by
  simp [sha256, hexdigest, List.length_flatMap, length_hash]

end ProjectOS.Base.Sha256
