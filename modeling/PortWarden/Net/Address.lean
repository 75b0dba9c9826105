/-!
# Addresses

IPv4 and IPv6 addresses as the numbers they are written from, and the classes of addresses that
decide how a port on them is checked: unspecified, multicast and link-local.
-/

namespace PortWarden

/-- An IPv4 address, by its four octets. -/
structure IPv4 where
  /-- The most significant octet. -/
  first : UInt8
  /-- The second octet. -/
  second : UInt8
  /-- The third octet. -/
  third : UInt8
  /-- The least significant octet. -/
  fourth : UInt8
  deriving DecidableEq, Repr

/-- An IPv6 address, by its eight groups of sixteen bits, the most significant first. -/
structure IPv6 where
  /-- The groups in the order in which they are written. -/
  groups : Vector UInt16 8
  deriving DecidableEq, Repr

/-- An address of either family. -/
inductive Address where
  /-- An IPv4 address. -/
  | v4 (address : IPv4)
  /-- An IPv6 address. -/
  | v6 (address : IPv6)
  deriving DecidableEq, Repr

/-- The two address families, which never contend for a port. -/
inductive Family where
  /-- IPv4. -/
  | inet
  /-- IPv6. -/
  | inet6
  deriving DecidableEq, Repr

/-- The name of a family in a system call. -/
def Family.name : Family → String
  | .inet => "inet"
  | .inet6 => "inet6"

namespace IPv4

/-- The address `0.0.0.0`, which stands for every IPv4 address of the host. -/
def unspecified : IPv4 := ⟨0, 0, 0, 0⟩

/-- The loopback address `127.0.0.1`. -/
def loopback : IPv4 := ⟨127, 0, 0, 1⟩

/-- The block `224.0.0.0/4` holds the multicast groups. -/
def isMulticast (a : IPv4) : Bool := 224 ≤ a.first && a.first ≤ 239

end IPv4

namespace IPv6

/-- The address `::`, which stands for every IPv6 address of the host. -/
def unspecified : IPv6 := ⟨#v[0, 0, 0, 0, 0, 0, 0, 0]⟩

/-- The block `ff00::/8` holds the multicast groups. -/
def isMulticast (a : IPv6) : Bool := a.groups[0] &&& 0xff00 == 0xff00

/-- The block `fe80::/10` holds the addresses that mean something on one link only. -/
def isLinkLocal (a : IPv6) : Bool := a.groups[0] &&& 0xffc0 == 0xfe80

/-- The IPv4 address inside an address of the block `::ffff:0:0/96`. -/
def mapped? (a : IPv6) : Option IPv4 :=
  if a.groups.toList.take 6 = [0, 0, 0, 0, 0, 0xffff] then
    some ⟨(a.groups[6] >>> 8).toUInt8, a.groups[6].toUInt8, (a.groups[7] >>> 8).toUInt8,
      a.groups[7].toUInt8⟩
  else none

end IPv6

namespace Address

/-- The family of an address. -/
def family : Address → Family
  | v4 _ => .inet
  | v6 _ => .inet6

/-- The unspecified address of a family, on which a socket is bound to all its addresses. -/
def unspecified : Family → Address
  | .inet => v4 .unspecified
  | .inet6 => v6 .unspecified

/-- Whether an address stands for every address of its family. -/
def isUnspecified (a : Address) : Bool := a == unspecified a.family

/-- Whether an address is a multicast group. -/
def isMulticast : Address → Bool
  | v4 a => a.isMulticast
  | v6 a => a.isMulticast

/-- Whether an address is an IPv6 link-local one. IPv4 addresses never count, `169.254.0.0/16`
neither. -/
def isLinkLocal : Address → Bool
  | v4 _ => false
  | v6 a => a.isLinkLocal

/-- The IPv4 wildcard, on which a stream is bound when no address is given. -/
def wildcard : Address := unspecified .inet

end Address

end PortWarden
