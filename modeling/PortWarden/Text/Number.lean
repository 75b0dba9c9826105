/-!
# Whole numbers in text

Bounded decimal numbers with an optional plus sign. A reader goes through the digits from the left,
and the first character that is no digit, or the first digit that takes the value over the bound,
decides what is wrong.
-/

namespace PortWarden.Text

/-- Why a text is not a number within the bounds asked for. -/
inductive NumberFault where
  /-- There is no character at all. -/
  | empty
  /-- A character is no digit, or a sign stands alone. -/
  | invalidDigit
  /-- The value lies above the bound. -/
  | tooLarge
  /-- The value lies below the bound. -/
  | tooSmall
  deriving DecidableEq, Repr

/-- The words in which a number fault is reported. -/
def NumberFault.message : NumberFault → String
  | .empty => "cannot parse integer from empty string"
  | .invalidDigit => "invalid digit found in string"
  | .tooLarge => "number too large to fit in target type"
  | .tooSmall => "number too small to fit in target type"

/-- The value of an ASCII digit in a base of at most sixteen, letters in either case. -/
def digit? (base : Nat) (c : Char) : Option Nat :=
  let value :=
    if '0' ≤ c && c ≤ '9' then some (c.toNat - '0'.toNat)
    else if 'a' ≤ c && c ≤ 'f' then some (c.toNat - 'a'.toNat + 10)
    else if 'A' ≤ c && c ≤ 'F' then some (c.toNat - 'A'.toNat + 10)
    else none
  value.filter (· < base)

/-- Reads digits to the end of the text onto the value `acc` of the digits before them. -/
def readDigits (base bound : Nat) : Nat → List Char → Except NumberFault Nat
  | acc, [] => .ok acc
  | acc, c :: cs =>
    match digit? base c with
    | none => .error .invalidDigit
    | some d =>
      if acc * base + d ≤ bound then readDigits base bound (acc * base + d) cs
      else .error .tooLarge

/-- Reads one or more digits. -/
def readUnsigned (base bound : Nat) : List Char → Except NumberFault Nat
  | [] => .error .empty
  | cs => readDigits base bound 0 cs

/-- Reads an optional plus sign and one or more decimal digits of a value up to `bound`. -/
def readNat (bound : Nat) : List Char → Except NumberFault Nat
  | ['+'] => .error .invalidDigit
  | '+' :: cs => readUnsigned 10 bound cs
  | cs => readUnsigned 10 bound cs

/-- Reads a decimal number with an optional sign, of a value from `-(bound + 1)` up to `bound`. -/
def readInt (bound : Nat) : List Char → Except NumberFault Int
  | ['-'] => .error .invalidDigit
  | '-' :: cs =>
    match readUnsigned 10 (bound + 1) cs with
    | .ok n => .ok (-n)
    | .error .tooLarge => .error .tooSmall
    | .error fault => .error fault
  | cs => (readNat bound cs).map Int.ofNat

/-- The largest number of 16 bits. -/
def maxUInt16 : Nat := 0xFFFF

/-- The largest number of 32 bits. -/
def maxUInt32 : Nat := 0xFFFFFFFF

/-- The largest number of 63 bits, which is the largest of 64 bits with a sign. -/
def maxInt64 : Nat := 0x7FFFFFFFFFFFFFFF

/-- The largest number of 64 bits. -/
def maxUInt64 : Nat := 0xFFFFFFFFFFFFFFFF

/-- Reads a number of 16 bits. -/
def readUInt16 (cs : List Char) : Except NumberFault UInt16 :=
  (readNat maxUInt16 cs).map UInt16.ofNat

/-- Reads a number of 64 bits. -/
def readUInt64 (cs : List Char) : Except NumberFault UInt64 :=
  (readNat maxUInt64 cs).map UInt64.ofNat

/-- The decimal digits of a number, without leading zeros. -/
def decimal (n : Nat) : List Char := Nat.toDigits 10 n

/-- The hexadecimal digits of a number in small letters, without leading zeros. -/
def hexadecimal (n : Nat) : List Char := Nat.toDigits 16 n

end PortWarden.Text
