import PortWarden.Port.Range

/-!
# Uniform choice from a range

A word of 32 bits times the size of the range, divided by 2^32, is a place in the range. The
products whose remainder lies above the last full round of the range are refused, which leaves the
same number of words for every port.
-/

namespace PortWarden

/-- How many words of 32 bits there are. -/
def wordCount : Nat := 0x100000000

namespace PortRange

/-- The remainders up to which a word is accepted for a range of `n` ports. -/
def zone (n : Nat) : Nat := wordCount - 1 - (wordCount - n) % n

/-- The port that a word stands for in a range whose bounds are in order, unless the word is
refused. The range of all 65536 numbers takes the lower half of the word as it is. -/
def pick? (r : PortRange) (word : UInt32) : Option UInt16 :=
  if r.count = 0x10000 then some word.toUInt16
  else
    let product := word.toNat * r.count
    if product % wordCount ≤ zone r.count then some (r.lower + UInt16.ofNat (product / wordCount))
    else none

end PortRange

end PortWarden
