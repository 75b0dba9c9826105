import PortWarden.Event
import PortWarden.Failure
import PortWarden.Host.SystemCall

/-!
# Interface addresses

The addresses on which a port has to be free before it is free on the whole host. They are asked of
the host, or fixed beforehand. Entries without an address on which a port could be bound are left
out.
-/

namespace PortWarden

/-- An address of an interface. -/
structure InterfaceAddress where
  /-- The name of the interface. -/
  name : String
  /-- The address. -/
  address : Address
  /-- The number of the interface, which link-local addresses need and IPv4 ones do not have. -/
  scope : UInt32 := 0
  deriving DecidableEq, Repr

/-- The endpoint of a port on an interface address. -/
def InterfaceAddress.endpoint (i : InterfaceAddress) (port : UInt16) : Endpoint :=
  match i.address with
  | .v4 a => (Address.v4 a).endpoint port
  | .v6 a => ⟨⟨.v6 a, i.scope⟩, port⟩

/-- The interface address that an entry in the host's list stands for, if any; IPv4 addresses lose
their scope. -/
def InterfaceEntry.interfaceAddress? (entry : InterfaceEntry) : Option InterfaceAddress :=
  match entry.address with
  | .internet ⟨.v4 a, _⟩ => some { name := entry.name, address := .v4 a }
  | .internet ⟨.v6 a, scope⟩ => some { name := entry.name, address := .v6 a, scope }
  | .link | .absent => none

/-- Where the interface addresses come from. -/
inductive InterfaceSource where
  /-- The host is asked each time. -/
  | system
  /-- They are known. -/
  | fixed (addresses : List InterfaceAddress)
  deriving DecidableEq, Repr

/-- The interface addresses of a source. A host that cannot list them fails the question, since a
port cannot be called free on addresses that are not known. -/
def InterfaceSource.addresses :
    InterfaceSource → ExceptT Failure (StateM (Logged Host)) (List InterfaceAddress)
  | fixed addresses => pure addresses
  | system => fun w =>
    match Host.listInterfaces w.state with
    | (.error errno, host) =>
      (.error (.interfaceListing errno.listingMessage), { w with state := host })
    | (.ok entries, host) =>
      let addresses := entries.filterMap InterfaceEntry.interfaceAddress?
      (.ok addresses, Logged.note { w with state := host } (.interfacesListed addresses.length))

end PortWarden
