import PortWarden.Host.Basic

/-!
# System calls

The calls by which the program asks its host for something. Each first meets the rules that make
calls fail; a call that fails does nothing but leave its record. `SystemCall` chains calls: the
first failure ends the chain and the host stays as the calls before it have left it.
-/

namespace PortWarden

/-- A chain of system calls, which ends with a result or the error of the first call that failed. -/
abbrev SystemCall (α : Type) := ExceptT Errno (StateM Host) α

/-- The address and port that a call is about, as far as rules for failing can name them. -/
structure CallSite where
  /-- The address. -/
  address : Address
  /-- The port. -/
  port : UInt16

/-- The site of a call about an endpoint. -/
def Endpoint.site (e : Endpoint) : CallSite := ⟨e.address, e.port⟩

namespace Fault

/-- Whether a rule is about a call. -/
def concerns (f : Fault) (operation : Operation) (site : Option CallSite) : Bool :=
  f.operation == operation &&
    (f.address.all fun a => site.any (·.address == a)) &&
    (f.port.all fun p => site.any (·.port == p))

/-- Goes through the rules in order. A rule about the call that still lets calls pass, or has no
failures left, counts the call and leaves it to the rules after it. -/
def strike (operation : Operation) (site : Option CallSite) : List Fault → Option Errno × List Fault
  | [] => (none, [])
  | f :: fs =>
    let later := strike operation site fs
    if !f.concerns operation site then (later.1, f :: later.2)
    else
      match f.skip, f.times with
      | skip + 1, _ => (later.1, { f with skip } :: later.2)
      | 0, none => (some f.errno, f :: fs)
      | 0, some 0 => (later.1, f :: later.2)
      | 0, some (times + 1) => (some f.errno, { f with times := some times } :: fs)

end Fault

namespace Host

/-- The error that the rules for failing give a call, and the host with the call counted. -/
def strike (h : Host) (operation : Operation) (site : Option CallSite) : Option Errno × Host :=
  let (errno, faults) := Fault.strike operation site h.faults
  (errno, { h with faults })

/-- A call that changes the host by `effect` unless a rule makes it fail. -/
def perform (operation : Operation) (site : Option CallSite) (call : Call)
    (effect : Host → Host) : SystemCall Unit :=
  fun h =>
    match h.strike operation site with
    | (some errno, h) => (.error errno, h.record { call with failure := some errno })
    | (none, h) => (.ok (), (effect h).record call)

/-- Creates a socket. -/
def create (family : Family) (kind : SocketKind) : SystemCall SocketId := fun h =>
  match h.strike .create none with
  | (some errno, h) => (.error errno, h.record ⟨none, .create family kind, some errno⟩)
  | (none, h) =>
    let id := h.created + 1
    let h := { h with created := id, sockets := { id, family, kind } :: h.sockets }
    (.ok id, h.record ⟨some id, .create family kind, none⟩)

/-- Lets a socket take an address that was in use a moment ago. -/
def reuseAddress (id : SocketId) : SystemCall Unit :=
  perform .reuseAddress none ⟨some id, .reuseAddress, none⟩ fun h => h

/-- Limits how long a socket waits for a message. -/
def setTimeout (id : SocketId) (milliseconds : Nat) : SystemCall Unit :=
  perform .timeout none ⟨some id, .timeout milliseconds, none⟩ fun h => h

/-- Binds a socket of a kind to an endpoint. -/
def bind (id : SocketId) (kind : SocketKind) (target : Endpoint) : SystemCall Unit := fun h =>
  let (fault, h) := h.strike .bind (some target.site)
  match fault.or (h.bindFault? kind target) with
  | some errno => (.error errno, h.record ⟨some id, .bind target, some errno⟩)
  | none =>
    (.ok (),
      (h.update id fun s => { s with bound := some target }).record ⟨some id, .bind target, none⟩)

/-- Starts to listen on a bound socket. -/
def listen (id : SocketId) (backlog : Nat) : SystemCall Unit := fun h =>
  perform .listen ((h.bound? id).map Endpoint.site) ⟨some id, .listen backlog, none⟩
    (fun h => h.update id fun s => { s with listening := true }) h

/-- Chooses the interface through which messages to groups leave. -/
def setMulticastInterface (id : SocketId) (interface : IPv4) : SystemCall Unit :=
  perform .multicastInterface (some ⟨.v4 interface, 0⟩)
    ⟨some id, .multicastInterface interface, none⟩ fun h => h

/-- Joins an IPv4 group on the interface of an address. -/
def joinOnInterface (id : SocketId) (group interface : IPv4) : SystemCall Unit :=
  perform .join (some ⟨.v4 group, 0⟩) ⟨some id, .joinOnInterface group interface, none⟩ fun h => h

/-- Joins an IPv6 group on the interface of a number, where 0 leaves the choice to the host. -/
def joinOnIndex (id : SocketId) (group : IPv6) (index : Nat) : SystemCall Unit :=
  perform .join (some ⟨.v6 group, 0⟩) ⟨some id, .joinOnIndex group index, none⟩ fun h => h

/-- Sends a message. -/
def send (id : SocketId) (payload : List UInt8) (target : Endpoint) : SystemCall Unit :=
  perform .send (some target.site) ⟨some id, .send payload target, none⟩
    fun h => h.update id fun s => { s with destination := some target }

/-- Who answers a message to an endpoint, if anybody does. -/
def answerer? (h : Host) (target : Endpoint) : Option Endpoint :=
  (h.responders.find? (·.group == target)).map (·.sender)

/-- Waits for an answer to the last message, and tells who sent it. -/
def receive (id : SocketId) : SystemCall Endpoint := fun h =>
  let destination := h.socket? id >>= (·.destination)
  match h.strike .receive (destination.map Endpoint.site) with
  | (some errno, h) => (.error errno, h.record ⟨some id, .receive none, some errno⟩)
  | (none, h) =>
    match destination >>= h.answerer? with
    | some sender => (.ok sender, h.record ⟨some id, .receive (some sender), none⟩)
    | none => (.error .tryAgain, h.record ⟨some id, .receive none, some .tryAgain⟩)

/-- Closes a socket, which never fails. -/
def close (h : Host) (id : SocketId) : Host :=
  { h with sockets := h.sockets.filter (·.id != id) }.record ⟨some id, .close, none⟩

/-- Lists the interfaces. -/
def listInterfaces : SystemCall (List InterfaceEntry) := fun h =>
  match h.strike .listInterfaces none with
  | (some errno, h) => (.error errno, h.record ⟨none, .listInterfaces 0, some errno⟩)
  | (none, h) => (.ok h.interfaces, h.record ⟨none, .listInterfaces h.interfaces.length, none⟩)

/-- What the resolver answers for a name. -/
def lookup (h : Host) (name : String) : Lookup × Host :=
  ((h.names.lookup name).getD (.error .unknownName), h.record ⟨none, .resolve name, none⟩)

/-- The longest time, in seconds, that one call can sleep. -/
def longestSleep : Nat := 0x7FFFFFFFFFFFFFFF

/-- Sleeps for a number of seconds, in as few calls as its length takes; no call for no time. -/
def sleep (h : Host) (seconds : Nat) : Host :=
  if seconds = 0 then h
  else if seconds ≤ longestSleep then h.record ⟨none, .sleep seconds, none⟩
  else (h.record ⟨none, .sleep longestSleep, none⟩).sleep (seconds - longestSleep)
termination_by seconds
decreasing_by simp only [longestSleep] at *; omega

/-- Runs a chain of calls on a socket that was just created, and closes it if one fails. -/
def closingOnError {α : Type} (id : SocketId) (calls : SystemCall α) : SystemCall α := fun h =>
  match calls h with
  | (.ok a, h) => (.ok a, h)
  | (.error errno, h) => (.error errno, h.close id)

end Host

end PortWarden
