import PortWarden.Net.Address
import PortWarden.Text.Number

/-!
# Address text

The written form of addresses. An IPv4 address is four decimal numbers with points between them. An
IPv6 address is eight hexadecimal groups with colons between them, of which the longest run of two
or more zero groups, the first of several, is left out; an address that holds an IPv4 one ends in
its points. Reading is strict: no leading zeros in a decimal part, at most four digits in a group,
and a double colon stands for one group at least.
-/

namespace PortWarden

open PortWarden.Text

namespace IPv4

/-- The written form of an IPv4 address. -/
def chars (a : IPv4) : List Char :=
  decimal a.first.toNat ++ '.' :: decimal a.second.toNat ++ '.' :: decimal a.third.toNat ++
    '.' :: decimal a.fourth.toNat

/-- One decimal part: up to three digits of a value up to 255, without a leading zero. -/
def readOctet? (cs : List Char) : Option UInt8 :=
  if cs.length ≤ 3 ∧ (cs.head? = some '0' → cs.length = 1) then
    ((readUnsigned 10 255 cs).map UInt8.ofNat).toOption
  else none

/-- Reads the written form of an IPv4 address. -/
def read? (cs : List Char) : Option IPv4 := do
  let [a, b, c, d] := cs.splitOn '.' | none
  return ⟨← readOctet? a, ← readOctet? b, ← readOctet? c, ← readOctet? d⟩

end IPv4

namespace IPv6

/-- The number of zero groups that a list of groups starts with. -/
def leadingZeros : List UInt16 → Nat
  | [] => 0
  | g :: gs => if g = 0 then leadingZeros gs + 1 else 0

/-- Where the longest run of zero groups starts and how long it is; of equally long runs, the
first. -/
def longestZeroRun : List UInt16 → Nat × Nat
  | [] => (0, 0)
  | g :: gs =>
    let later := longestZeroRun gs
    if later.2 ≤ leadingZeros (g :: gs) then (0, leadingZeros (g :: gs)) else (later.1 + 1, later.2)

/-- Groups in hexadecimal with colons between them. -/
def groupChars : List UInt16 → List Char
  | [] => []
  | [g] => hexadecimal g.toNat
  | g :: gs => hexadecimal g.toNat ++ ':' :: groupChars gs

/-- The written form of an IPv6 address. -/
def chars (a : IPv6) : List Char :=
  match a.mapped? with
  | some inner => "::ffff:".toList ++ inner.chars
  | none =>
    let groups := a.groups.toList
    let (start, length) := longestZeroRun groups
    if length < 2 then groupChars groups
    else groupChars (groups.take start) ++ ':' :: ':' :: groupChars (groups.drop (start + length))

/-- One group: up to four hexadecimal digits. -/
def readGroup? (cs : List Char) : Option UInt16 :=
  if cs.length ≤ 4 then ((readUnsigned 16 maxUInt16 cs).map UInt16.ofNat).toOption else none

/-- The two groups that an IPv4 address fills. -/
def groupsOfIPv4 (a : IPv4) : List UInt16 :=
  [a.first.toUInt16 <<< 8 ||| a.second.toUInt16, a.third.toUInt16 <<< 8 ||| a.fourth.toUInt16]

/-- The groups that the parts between colons stand for; where `dotted` allows it the last part may
be an IPv4 address. -/
def readParts? (dotted : Bool) : List (List Char) → Option (List UInt16)
  | [] => some []
  | [part] =>
    match readGroup? part with
    | some g => some [g]
    | none => if dotted then (IPv4.read? part).map groupsOfIPv4 else none
  | part :: parts => do return (← readGroup? part) :: (← readParts? dotted parts)

/-- Reads groups with colons between them; no text is no group. -/
def readGroups? (dotted : Bool) (cs : List Char) : Option (List UInt16) :=
  if cs.isEmpty then some [] else readParts? dotted (cs.splitOn ':')

/-- The text before and after the first double colon. -/
def splitAtGap? : List Char → Option (List Char × List Char)
  | ':' :: ':' :: cs => some ([], cs)
  | c :: cs => (splitAtGap? cs).map fun (before, after) => (c :: before, after)
  | [] => none

/-- The address of eight groups. -/
def ofGroups? (groups : List UInt16) : Option IPv6 :=
  if h : groups.length = 8 then some ⟨⟨groups.toArray, by simpa using h⟩⟩ else none

/-- Reads the written form of an IPv6 address. -/
def read? (cs : List Char) : Option IPv6 :=
  match splitAtGap? cs with
  | none => readGroups? true cs >>= ofGroups?
  | some (before, after) => do
    let front ← readGroups? false before
    let back ← readGroups? true after
    let missing := 8 - (front.length + back.length)
    if missing = 0 then none else ofGroups? (front ++ List.replicate missing 0 ++ back)

end IPv6

namespace Address

/-- The written form of an address. -/
def chars : Address → List Char
  | v4 a => a.chars
  | v6 a => a.chars

/-- The written form of an address, as a string. -/
def text (a : Address) : String := String.ofList a.chars

/-- Reads the written form of an address of either family. -/
def read? (cs : List Char) : Option Address :=
  (IPv4.read? cs).map v4 <|> (IPv6.read? cs).map v6

end Address

/-- The written form of an IPv4 address, as a string. -/
def IPv4.text (a : IPv4) : String := String.ofList a.chars

end PortWarden
