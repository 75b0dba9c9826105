import PortWarden.Text.Blank
import PortWarden.Text.Number

/-!
# Port ranges

Closed intervals of ports, how they are checked, written and read. A range may be held unchecked,
since its bounds can come from two sources one after the other; `check` tells whether it is usable.
-/

namespace PortWarden

open PortWarden.Text

/-- The ports from `lower` up to `upper`, both included. -/
structure PortRange where
  /-- The least port of the range. -/
  lower : UInt16
  /-- The greatest port of the range. -/
  upper : UInt16
  deriving DecidableEq, Repr

/-- Why bounds or a text do not give a usable range. -/
inductive RangeFault where
  /-- The range starts at port 0, which is no port. -/
  | portZero
  /-- The lower bound lies above the upper one. -/
  | inverted (range : PortRange)
  /-- The text is not two numbers of 16 bits with a dash between them. -/
  | malformed (text : String)
  deriving DecidableEq, Repr

namespace PortRange

/-- The written form of a range. -/
def chars (r : PortRange) : List Char := decimal r.lower.toNat ++ '-' :: decimal r.upper.toNat

/-- The written form of a range, as a string. -/
def text (r : PortRange) : String := String.ofList r.chars

/-- What makes a range unusable, if anything does; port 0 is found before inverted bounds. -/
def fault? (r : PortRange) : Option RangeFault :=
  if r.lower = 0 then some .portZero else if r.upper < r.lower then some (.inverted r) else none

/-- Passes on a usable range. -/
def check (r : PortRange) : Except RangeFault PortRange :=
  match r.fault? with
  | none => .ok r
  | some fault => .error fault

/-- Whether a port lies in the range. -/
def contains (r : PortRange) (port : UInt16) : Bool := r.lower ≤ port && port ≤ r.upper

/-- The number of ports of a range whose bounds are in order. -/
def count (r : PortRange) : Nat := r.upper.toNat - r.lower.toNat + 1

/-- The text before and after the first dash. -/
def splitAtDash? : List Char → Option (List Char × List Char)
  | [] => none
  | c :: cs =>
    if c = '-' then some ([], cs)
    else (splitAtDash? cs).map fun (before, after) => (c :: before, after)

/-- The bounds written before and after the first dash, blanks around either allowed. -/
def readBounds? (cs : List Char) : Option PortRange := do
  let (before, after) ← splitAtDash? cs
  return ⟨← (readUInt16 (trim before)).toOption, ← (readUInt16 (trim after)).toOption⟩

/-- Reads a usable range. -/
def read (s : String) : Except RangeFault PortRange :=
  match readBounds? s.toList with
  | none => .error (.malformed s)
  | some r => r.check

end PortRange

/-- The words in which a range fault is reported. -/
def RangeFault.message : RangeFault → String
  | portZero => "Port range must not include port 0"
  | inverted range => "Port range " ++ range.text ++ " is inverted"
  | malformed text => "Malformed port range: " ++ text

end PortWarden
