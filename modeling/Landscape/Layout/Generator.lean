/-!
# A stream of random numbers

A generator with 128 bits of state that steps by a fixed multiplier and an increment of its own, and
folds its state to 64 bits at each step. A seed of any size is spread over the state and the
increment by mixing its 32-bit words. The same seed gives the same stream.
-/

namespace Landscape.Layout

/-- The 32-bit words of a seed, the least significant first; there is at least one. -/
def seedWords (seed : Nat) : List UInt32 :=
  if seed < 0x100000000 then [UInt32.ofNat seed]
  else UInt32.ofNat (seed % 0x100000000) :: seedWords (seed / 0x100000000)
termination_by seed
decreasing_by omega

/-- Four words of entropy, and the constant that the next hash starts from. -/
structure Pool where
  words : List UInt32
  constant : UInt32

/-- Fold the upper half of a word into its lower half. -/
def foldWord (v : UInt32) : UInt32 := v ^^^ (v >>> 16)

/-- Hash a word; each hash has a constant of its own. -/
def Pool.hash (p : Pool) (v : UInt32) : UInt32 × Pool :=
  let next := p.constant * 0x931e8875
  (foldWord ((v ^^^ p.constant) * next), { p with constant := next })

/-- Combine two words. -/
def combineWords (x y : UInt32) : UInt32 := foldWord (0xca01f9dd * x - 0x4973f715 * y)

/-- Mix the hash of a word into one place of the pool. -/
def Pool.mix (p : Pool) (place : Nat) (v : UInt32) : Pool :=
  let (hashed, p) := p.hash v
  { p with words := p.words.modify place (combineWords · hashed) }

/-- Fill a pool with the first words of a seed, zeros where it has none. -/
def Pool.fill (words : List UInt32) : Pool :=
  (List.range 4).foldl
    (fun p i =>
      let (hashed, p) := p.hash (words.getD i 0)
      { p with words := p.words ++ [hashed] })
    ⟨[], 0x43b0d7e5⟩

/-- Mix each place of a pool into every other one. -/
def Pool.stir (p : Pool) : Pool :=
  (List.range 4).foldl
    (fun p i =>
      ((List.range 4).filter (· != i)).foldl (fun p j => p.mix j (p.words.getD i 0)) p)
    p

/-- Mix further words into every place of a pool. -/
def Pool.absorb (p : Pool) (words : List UInt32) : Pool :=
  words.foldl (fun p v => (List.range 4).foldl (fun p j => p.mix j v) p) p

/-- The pool of a seed. -/
def Pool.ofSeed (seed : Nat) : Pool :=
  let words := seedWords seed
  (Pool.fill words).stir.absorb (words.drop 4)

/-- Eight words drawn from a pool by going round it twice. -/
def Pool.draw (p : Pool) : List UInt32 :=
  ((List.range 8).foldl
    (fun (drawn, constant) i =>
      let next := constant * 0x58f38ded
      (drawn ++ [foldWord ((p.words.getD (i % 4) 0 ^^^ constant) * next)], next))
    (([], 0x8b51f9dd) : List UInt32 × UInt32)).1

/-- The state of the generator; both numbers are below `2 ^ 128`. -/
structure Generator where
  state : Nat
  increment : Nat

/-- The multiplier of the generator. -/
def multiplier : Nat := (2549297995355413924 <<< 64) + 4865540595714422341

namespace Generator

/-- One step of the generator. -/
def step (g : Generator) : Generator :=
  { g with state := (g.state * multiplier + g.increment) % (1 <<< 128) }

/-- Two drawn words as one number, the low word first. -/
private def join64 (words : List UInt32) (i : Nat) : Nat :=
  (words.getD i 0).toNat + (words.getD (i + 1) 0).toNat <<< 32

/-- The generator of a seed. -/
def ofSeed (seed : Nat) : Generator :=
  let words := (Pool.ofSeed seed).draw
  let initial := join64 words 0 <<< 64 + join64 words 2
  let increment := (2 * (join64 words 4 <<< 64 + join64 words 6) + 1) % (1 <<< 128)
  let started := step ⟨0, increment⟩
  step { started with state := (started.state + initial) % (1 <<< 128) }

/-- Rotate a 64-bit number to the right. -/
def rotate (n count : Nat) : Nat := n >>> count + (n % (1 <<< count)) <<< (64 - count)

/-- The 64 bits of a state. -/
def output (state : Nat) : Nat :=
  rotate ((state >>> 64) ^^^ (state % (1 <<< 64))) (state >>> 122)

/-- The next number at least zero and less than one, in steps of `2 ^ -53`. -/
def next (g : Generator) : Float × Generator :=
  let g := g.step
  ((UInt64.ofNat (output g.state >>> 11)).toFloat * Float.ofBits 0x3ca0000000000000, g)

/-- A list of numbers at least zero and less than one. -/
def take (g : Generator) : (count : Nat) → List Float
  | 0 => []
  | count + 1 =>
    let (x, g) := g.next
    x :: g.take count

end Generator

end Landscape.Layout
