import PortWarden.Random.Entropy

/-!
# The fast generator

A generator with 256 bits of state that scrambles the sum of two of its four words (xoshiro256++). A
short seed is spread over the state by a congruential generator with permuted output (PCG32); a
state of zeros, which would stay as it is, is replaced by one from a mixer of single words
(SplitMix64).
-/

namespace PortWarden

/-- The state of the fast generator. -/
structure Xoshiro where
  s0 : UInt64
  s1 : UInt64
  s2 : UInt64
  s3 : UInt64
  deriving DecidableEq, Repr

/-- Rotates a word to the left. -/
def rotateLeft (x k : UInt64) : UInt64 := x <<< k ||| x >>> (64 - k)

/-- The amount by which the state of the mixer grows in each step. -/
def mixIncrement : UInt64 := 0x9e3779b97f4a7c15

/-- The output of the mixer for a state. -/
def mix (z : UInt64) : UInt64 :=
  let z := (z ^^^ z >>> 30) * 0xbf58476d1ce4e5b9
  let z := (z ^^^ z >>> 27) * 0x94d049bb133111eb
  z ^^^ z >>> 31

/-- The state of the congruential generator after one step. -/
def congruentialStep (state : UInt64) : UInt64 := state * 6364136223846793005 + 11634580027462260723

/-- The output of the congruential generator: bits from its upper half, rotated by its uppermost
five. -/
def congruentialOutput (state : UInt64) : UInt32 :=
  let shifted := ((state >>> 18 ^^^ state) >>> 27).toUInt32
  let amount := (state >>> 59).toUInt32
  shifted >>> amount ||| shifted <<< (32 - amount)

/-- The next word of 64 bits that is spread from a seed, the lower half first, and the seed for
those after it. -/
def nextSpread (seed : UInt64) : UInt64 × UInt64 :=
  let low := congruentialStep seed
  let high := congruentialStep low
  ((congruentialOutput low).toUInt64 ||| (congruentialOutput high).toUInt64 <<< 32, high)

namespace Xoshiro

/-- The state that stands in for zeros: four consecutive outputs of the mixer from zero on. -/
def ofZeros : Xoshiro :=
  ⟨mix mixIncrement, mix (2 * mixIncrement), mix (3 * mixIncrement), mix (4 * mixIncrement)⟩

/-- The generator of a full seed. Zeros would only ever yield zeros, so another state stands in for
them. -/
def ofState (s : Xoshiro) : Xoshiro := if s = ⟨0, 0, 0, 0⟩ then ofZeros else s

/-- The generator whose full seed is spread from a short one. -/
def ofSeed (seed : UInt64) : Xoshiro :=
  let (s0, seed) := nextSpread seed
  let (s1, seed) := nextSpread seed
  let (s2, seed) := nextSpread seed
  let (s3, _) := nextSpread seed
  ofState ⟨s0, s1, s2, s3⟩

/-- The generator whose full seed is taken from a source. -/
def ofEntropy (e : Entropy) : Xoshiro × Entropy :=
  let (s0, e) := e.nextPair
  let (s1, e) := e.nextPair
  let (s2, e) := e.nextPair
  let (s3, e) := e.nextPair
  (ofState ⟨s0, s1, s2, s3⟩, e)

/-- The state after one step. -/
def step (s : Xoshiro) : Xoshiro :=
  let t := s.s1 <<< 17
  let s2 := s.s2 ^^^ s.s0
  let s3 := s.s3 ^^^ s.s1
  let s1 := s.s1 ^^^ s2
  let s0 := s.s0 ^^^ s3
  ⟨s0, s1, s2 ^^^ t, rotateLeft s3 45⟩

/-- The output of a state, of which the upper half is used. -/
def output (s : Xoshiro) : UInt32 := ((rotateLeft (s.s0 + s.s3) 23 + s.s0) >>> 32).toUInt32

/-- The next word of 32 bits. -/
def next (s : Xoshiro) : UInt32 × Xoshiro := (s.output, s.step)

end Xoshiro

end PortWarden
