import PortWarden.Net.AddressText

/-!
# Endpoints

A port on an address, which is what a socket is bound to. IPv6 addresses carry the number of the
interface they are meant on, their scope, which is zero when it does not matter.
-/

namespace PortWarden

open PortWarden.Text

/-- An address on an interface of the host. -/
structure ScopedAddress where
  /-- The address. -/
  address : Address
  /-- The number of the interface, zero where the address alone says enough. -/
  scope : UInt32 := 0
  deriving DecidableEq, Repr

/-- A port on an address of the host or of another host. -/
structure Endpoint extends ScopedAddress where
  /-- The port. -/
  port : UInt16
  deriving DecidableEq, Repr

/-- The endpoint of a port on an address without a scope. -/
def Address.endpoint (address : Address) (port : UInt16) : Endpoint := ⟨⟨address, 0⟩, port⟩

namespace Endpoint

/-- The family of the address. -/
def family (e : Endpoint) : Family := e.address.family

/-- Two endpoints that no two listeners can hold at once: the same port in one family, on the same
address and scope or where either address stands for all of them. -/
def conflicts (a b : Endpoint) : Bool :=
  a.family == b.family && a.port == b.port &&
    (a.address.isUnspecified || b.address.isUnspecified || a.toScopedAddress == b.toScopedAddress)

/-- The written form of an endpoint: an IPv6 address stands in brackets, with its scope unless that
is zero. -/
def chars (e : Endpoint) : List Char :=
  match e.address with
  | .v4 a => a.chars ++ ':' :: decimal e.port.toNat
  | .v6 a =>
    let scope := if e.scope = 0 then [] else '%' :: decimal e.scope.toNat
    '[' :: a.chars ++ scope ++ ']' :: ':' :: decimal e.port.toNat

/-- The written form of an endpoint, as a string. -/
def text (e : Endpoint) : String := String.ofList e.chars

end Endpoint

/-- A decimal number of 32 bits. -/
def readScope? (cs : List Char) : Option UInt32 :=
  ((readUnsigned 10 maxUInt32 cs).map UInt32.ofNat).toOption

/-- A decimal number of 16 bits. -/
def readPort? (cs : List Char) : Option UInt16 :=
  ((readUnsigned 10 maxUInt16 cs).map UInt16.ofNat).toOption

/-- Reads an address, for IPv6 with an optional scope after a percent sign. -/
def ScopedAddress.read? (cs : List Char) : Option ScopedAddress :=
  match cs.splitOn '%' with
  | [plain] => (Address.read? plain).map (⟨·, 0⟩)
  | [plain, scope] => do return ⟨.v6 (← IPv6.read? plain), ← readScope? scope⟩
  | _ => none

/-- Reads the written form of an endpoint. -/
def Endpoint.read? : List Char → Option Endpoint
  | '[' :: cs =>
    match cs.splitOn ']' with
    | [inner, ':' :: port] => do
      let ⟨.v6 a, scope⟩ ← ScopedAddress.read? inner | none
      return ⟨⟨.v6 a, scope⟩, ← readPort? port⟩
    | _ => none
  | cs =>
    match cs.splitOn ':' with
    | [address, port] => do return ⟨⟨.v4 (← IPv4.read? address), 0⟩, ← readPort? port⟩
    | _ => none

end PortWarden
