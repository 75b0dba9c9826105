/-!
# Entropy

The random words of the operating system, as an endless sequence of which a part has been taken.
-/

namespace PortWarden

/-- A source of random words. -/
structure Entropy where
  /-- The words in the order in which they are taken. -/
  word : Nat → UInt32
  /-- How many have been taken. -/
  taken : Nat := 0

namespace Entropy

/-- The source that repeats a list of words for ever; without words, zeros. -/
def cycle (words : List UInt32) : Entropy :=
  let words := words.toArray
  { word := fun i => words.getD (i % words.size) 0 }

/-- Takes the next word. -/
def next (e : Entropy) : UInt32 × Entropy := (e.word e.taken, { e with taken := e.taken + 1 })

/-- Takes two words as one of 64 bits, the lower half first. -/
def nextPair (e : Entropy) : UInt64 × Entropy :=
  let (low, e) := e.next
  let (high, e) := e.next
  (low.toUInt64 ||| high.toUInt64 <<< 32, e)

end Entropy

end PortWarden
