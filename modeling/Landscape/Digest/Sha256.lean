/-!
# The SHA-256 digest

A message is padded to blocks of 64 bytes; each block is stretched to 64 words, which are worked into
eight words of state in as many rounds.
-/

namespace Landscape.Sha256

/-- The words that the rounds add. -/
def roundWords : List UInt32 :=
  [0x428a2f98, 0x71374491, 0xb5c0fbcf, 0xe9b5dba5, 0x3956c25b, 0x59f111f1, 0x923f82a4, 0xab1c5ed5,
   0xd807aa98, 0x12835b01, 0x243185be, 0x550c7dc3, 0x72be5d74, 0x80deb1fe, 0x9bdc06a7, 0xc19bf174,
   0xe49b69c1, 0xefbe4786, 0x0fc19dc6, 0x240ca1cc, 0x2de92c6f, 0x4a7484aa, 0x5cb0a9dc, 0x76f988da,
   0x983e5152, 0xa831c66d, 0xb00327c8, 0xbf597fc7, 0xc6e00bf3, 0xd5a79147, 0x06ca6351, 0x14292967,
   0x27b70a85, 0x2e1b2138, 0x4d2c6dfc, 0x53380d13, 0x650a7354, 0x766a0abb, 0x81c2c92e, 0x92722c85,
   0xa2bfe8a1, 0xa81a664b, 0xc24b8b70, 0xc76c51a3, 0xd192e819, 0xd6990624, 0xf40e3585, 0x106aa070,
   0x19a4c116, 0x1e376c08, 0x2748774c, 0x34b0bcb5, 0x391c0cb3, 0x4ed8aa4a, 0x5b9cca4f, 0x682e6ff3,
   0x748f82ee, 0x78a5636f, 0x84c87814, 0x8cc70208, 0x90befffa, 0xa4506ceb, 0xbef9a3f7, 0xc67178f2]

/-- The eight words of state. -/
structure State where
  a : UInt32
  b : UInt32
  c : UInt32
  d : UInt32
  e : UInt32
  f : UInt32
  g : UInt32
  h : UInt32

/-- The state before the first block. -/
def initial : State :=
  ⟨0x6a09e667, 0xbb67ae85, 0x3c6ef372, 0xa54ff53a, 0x510e527f, 0x9b05688c, 0x1f83d9ab, 0x5be0cd19⟩

/-- Rotate a word to the right. -/
def rotate (x : UInt32) (n : UInt32) : UInt32 := (x >>> n) ||| (x <<< (32 - n))

/-- The last `width` bytes of a number, the most significant first. -/
def bigEndian (width n : Nat) : List UInt8 :=
  ((List.range width).map fun i => UInt8.ofNat (n >>> (8 * i) % 256)).reverse

/-- A message with a one bit, zeros, and its length in bits, filling whole blocks. -/
def pad (message : List UInt8) : List UInt8 :=
  let zeros := (119 - message.length % 64) % 64
  message ++ 0x80 :: List.replicate zeros 0 ++ bigEndian 8 (8 * message.length)

/-- The big-endian words of bytes. -/
def wordsOf : List UInt8 → List UInt32
  | p :: q :: r :: s :: rest =>
    ((p.toUInt32 <<< 24) ||| (q.toUInt32 <<< 16) ||| (r.toUInt32 <<< 8) ||| s.toUInt32) :: wordsOf rest
  | _ => []

/-- Stretch the words of a block by further words, each from four before it. -/
def stretch (block : List UInt32) : Array UInt32 :=
  (List.range 48).foldl
    (fun words i =>
      let x := words.getD (i + 1) 0
      let y := words.getD (i + 14) 0
      let s := rotate x 7 ^^^ rotate x 18 ^^^ (x >>> 3)
      let t := rotate y 17 ^^^ rotate y 19 ^^^ (y >>> 10)
      words.push (words.getD i 0 + s + words.getD (i + 9) 0 + t))
    block.toArray

/-- One round: work a word into the state. -/
def round (s : State) (word : UInt32) : State :=
  let t := s.h + (rotate s.e 6 ^^^ rotate s.e 11 ^^^ rotate s.e 25)
    + ((s.e &&& s.f) ^^^ (~~~s.e &&& s.g)) + word
  let u := (rotate s.a 2 ^^^ rotate s.a 13 ^^^ rotate s.a 22)
    + ((s.a &&& s.b) ^^^ (s.a &&& s.c) ^^^ (s.b &&& s.c))
  ⟨t + u, s.a, s.b, s.c, s.d + t, s.e, s.f, s.g⟩

/-- Work a block into the state. -/
def compress (s : State) (block : List UInt32) : State :=
  let t := ((stretch block).toList.zipWith (· + ·) roundWords).foldl round s
  ⟨s.a + t.a, s.b + t.b, s.c + t.c, s.d + t.d, s.e + t.e, s.f + t.f, s.g + t.g, s.h + t.h⟩

/-- Work all blocks into the state. -/
def absorb (s : State) (words : List UInt32) : State :=
  if words.isEmpty then s else absorb (compress s (words.take 16)) (words.drop 16)
termination_by words.length
decreasing_by
  rename_i h
  cases words
  · simp at h
  · simp only [List.length_drop, List.length_cons]; omega

/-- The digest of a message. -/
def digest (message : List UInt8) : List UInt8 :=
  let s := absorb initial (wordsOf (pad message))
  [s.a, s.b, s.c, s.d, s.e, s.f, s.g, s.h].flatMap fun w => bigEndian 4 w.toNat

end Landscape.Sha256
