import PortWarden.Host.Errno
import PortWarden.Net.Endpoint

/-!
# Hosts

The state of a host as far as checking ports can see it: the addresses assigned to it, listeners of
other programs, interfaces, the names its resolver knows, who answers in multicast groups, the
program's own open sockets, the calls that will fail, and the calls made so far.
-/

namespace PortWarden

/-- The number of a socket; sockets are numbered from 1 in the order in which they are created. -/
abbrev SocketId := Nat

/-- The two kinds of sockets. -/
inductive SocketKind where
  /-- A connection, for which a port is listened on. -/
  | stream
  /-- Single messages. -/
  | datagram
  deriving DecidableEq, Repr

/-- The name of a kind of socket in a system call. -/
def SocketKind.name : SocketKind → String
  | .stream => "stream"
  | .datagram => "dgram"

/-- An open socket of the program. -/
structure Socket where
  /-- Its number. -/
  id : SocketId
  /-- The family it was created for. -/
  family : Family
  /-- The kind it was created as. -/
  kind : SocketKind
  /-- What it is bound to, once it is. -/
  bound : Option Endpoint := none
  /-- Whether it listens. -/
  listening : Bool := false
  /-- Where the last message was sent. -/
  destination : Option Endpoint := none
  deriving DecidableEq, Repr

/-- The system calls that can be made to fail. -/
inductive Operation where
  | create
  | reuseAddress
  | timeout
  | bind
  | listen
  | multicastInterface
  | join
  | send
  | receive
  | listInterfaces
  deriving DecidableEq, Repr

/-- A rule that makes calls fail. -/
structure Fault where
  /-- The call that fails. -/
  operation : Operation
  /-- The error it fails with. -/
  errno : Errno
  /-- If given, only calls about this address fail. -/
  address : Option Address := none
  /-- If given, only calls about this port fail. -/
  port : Option UInt16 := none
  /-- How many matching calls pass first. -/
  skip : Nat := 0
  /-- How many calls fail after that; without a number, all of them. -/
  times : Option Nat := none
  deriving DecidableEq, Repr

/-- What a system call asks for. -/
inductive Action where
  | create (family : Family) (kind : SocketKind)
  | reuseAddress
  | timeout (milliseconds : Nat)
  | bind (target : Endpoint)
  | listen (backlog : Nat)
  | multicastInterface (interface : IPv4)
  | joinOnInterface (group interface : IPv4)
  | joinOnIndex (group : IPv6) (index : Nat)
  | send (payload : List UInt8) (target : Endpoint)
  /-- Waits for a message; the sender is known if one came. -/
  | receive (sender : Option Endpoint)
  | close
  /-- Lists the interfaces, of which there are `count` entries. -/
  | listInterfaces (count : Nat)
  | resolve (name : String)
  | sleep (seconds : Nat)
  deriving DecidableEq, Repr

/-- One system call as it is recorded. -/
structure Call where
  /-- The socket it is about, if any; for a new socket, its number. -/
  socket : Option SocketId
  /-- What it asks for. -/
  action : Action
  /-- The error it failed with, if it did. -/
  failure : Option Errno := none
  deriving DecidableEq, Repr

/-- The address of an entry in the list of interfaces. -/
inductive InterfaceEntryAddress where
  /-- An address on which a port can be bound. -/
  | internet (address : ScopedAddress)
  /-- An address of the link layer. -/
  | link
  /-- No address. -/
  | absent
  deriving DecidableEq, Repr

/-- An entry in the list of interfaces. -/
structure InterfaceEntry where
  /-- The name of the interface. -/
  name : String
  /-- Its address, of which there may be several entries. -/
  address : InterfaceEntryAddress
  deriving DecidableEq, Repr

/-- Somebody who answers a message sent to a group. -/
structure Responder where
  /-- The group and port to which a message has to be sent. -/
  group : Endpoint
  /-- Where the answer comes from. -/
  sender : Endpoint
  deriving DecidableEq, Repr

/-- Why a name is not resolved. -/
inductive LookupFault where
  /-- The name is not known. -/
  | unknownName
  /-- The resolver fails for now. -/
  | temporary
  /-- The resolver fails for good. -/
  | permanent
  /-- The family asked for is not supported. -/
  | family
  /-- A system call of the resolver fails. -/
  | system (errno : Errno)
  deriving DecidableEq, Repr

/-- The words in which a resolver's failure is reported. -/
def LookupFault.message : LookupFault → String
  | unknownName => "failed to lookup address information: Name or service not known"
  | temporary => "failed to lookup address information: Temporary failure in name resolution"
  | permanent => "failed to lookup address information: Non-recoverable failure in name resolution"
  | family => "failed to lookup address information: ai_family not supported"
  | system errno => errno.message

/-- What the resolver answers for a name: addresses in order, with a gap for each of a family that
is not used here. -/
abbrev Lookup := Except LookupFault (List (Option Address))

/-- The state of a host. -/
structure Host where
  /-- The addresses assigned to the host. -/
  assigned : List ScopedAddress := []
  /-- What other programs listen on. -/
  foreign : List Endpoint := []
  /-- The list of interfaces. -/
  interfaces : List InterfaceEntry := []
  /-- The calls that will fail; of several rules the first that applies decides. -/
  faults : List Fault := []
  /-- Who answers in multicast groups. -/
  responders : List Responder := []
  /-- The names that the resolver knows. -/
  names : List (String × Lookup) := []
  /-- The open sockets of the program, the youngest first. -/
  sockets : List Socket := []
  /-- How many sockets have been created. -/
  created : Nat := 0
  /-- The calls made, the latest first. -/
  trace : List Call := []

namespace Host

/-- The calls made, in order. -/
def calls (h : Host) : List Call := h.trace.reverse

/-- The endpoints on which the program itself listens. -/
def ownListeners (h : Host) : List Endpoint :=
  h.sockets.filterMap fun s => if s.listening then s.bound else none

/-- Everything that is listened on. -/
def listeners (h : Host) : List Endpoint := h.foreign ++ h.ownListeners

/-- The open socket of a number. -/
def socket? (h : Host) (id : SocketId) : Option Socket := h.sockets.find? (·.id == id)

/-- The endpoint that a socket is bound to. -/
def bound? (h : Host) (id : SocketId) : Option Endpoint := h.socket? id >>= (·.bound)

/-- Records a call. -/
def record (h : Host) (call : Call) : Host := { h with trace := call :: h.trace }

/-- Changes an open socket. -/
def update (h : Host) (id : SocketId) (change : Socket → Socket) : Host :=
  { h with sockets := h.sockets.map fun s => if s.id = id then change s else s }

/-- Why no socket can be bound to an address: a link-local one needs its scope, and one that is
neither unspecified nor assigned to the host is nobody's. -/
def addressFault? (h : Host) (a : ScopedAddress) : Option Errno :=
  if a.address.isUnspecified then none
  else if a.address.isLinkLocal then
    if a.scope = 0 then some .invalidArgument
    else if h.assigned.contains a then none else some .addressNotAvailable
  else if h.assigned.any (·.address == a.address) then none else some .addressNotAvailable

/-- Whether a listener on `target` would contend with one that is there; port 0 never does. -/
def isContended (h : Host) (target : Endpoint) : Bool :=
  target.port != 0 && h.listeners.any target.conflicts

/-- The rule by which a socket of a kind may be bound to an endpoint: the error with which it may
not. -/
def bindFault? (h : Host) (kind : SocketKind) (target : Endpoint) : Option Errno :=
  (h.addressFault? target.toScopedAddress).or
    (if kind = .stream ∧ h.isContended target then some .addressInUse else none)

end Host

end PortWarden
