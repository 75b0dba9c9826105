import PortWarden.Probe.Stream

/-!
# Multicast ports

A multicast port is free in a group if nobody there answers a message in time. A port that cannot be
asked about counts as in use, unless the network cannot be reached at all while the message is
prepared, which is a failure.
-/

namespace PortWarden

/-- The message to which users of a multicast port answer, the letters `ping`. -/
def pingMessage : List UInt8 := [0x70, 0x69, 0x6e, 0x67]

namespace Prober

/-- Binds a socket to any port and joins a group. An IPv4 group is joined on the interface of the
options, through which the message then leaves, too. -/
def joinGroup (p : Prober) (id : SocketId) : Address → SystemCall Unit
  | .v4 group => do
    Host.bind id .datagram ((Address.unspecified .inet).endpoint 0)
    let interface := p.options.multicastInterface.getD .unspecified
    unless interface = .unspecified do Host.setMulticastInterface id interface
    Host.joinOnInterface id group interface
  | .v6 group => do
    Host.bind id .datagram ((Address.unspecified .inet6).endpoint 0)
    Host.joinOnIndex id group 0

/-- Sends the message to a group through a new socket. -/
def sendPing (p : Prober) (id : SocketId) (target : Endpoint) : SystemCall Unit := do
  Host.reuseAddress id
  Host.setTimeout id p.options.timeout.toNat
  p.joinGroup id target.address
  Host.send id pingMessage target

/-- Waits for an answer and tells whether the port counts as in use: it does if an answer comes, and
also if waiting ends in anything but silence. -/
def awaitAnswer (id : SocketId) (target : Endpoint) (w : Logged Host) : Bool × Logged Host :=
  match Host.receive id w.state with
  | (.ok sender, host) => (true, Logged.note ⟨host, w.log⟩ (.groupAnswered target sender))
  | (.error errno, host) =>
    if errno.isTimeout then (false, ⟨host, w.log⟩)
    else (true, Logged.note ⟨host, w.log⟩ (.receiveFailed target errno))

/-- Asks in a group whether a port is in use. The socket is closed at the end in any case. -/
def pingGroup (p : Prober) (target : Endpoint) (w : Logged Host) :
    Except Errno Bool × Logged Host :=
  match Host.create target.family .datagram w.state with
  | (.error errno, host) => (.error errno, ⟨host, w.log⟩)
  | (.ok id, host) =>
    match p.sendPing id target host with
    | (.error errno, host) => (.error errno, ⟨host.close id, w.log⟩)
    | (.ok (), host) =>
      let (occupied, w) := awaitAnswer id target ⟨host, w.log⟩
      (.ok occupied, { w with state := w.state.close id })

/-- Whether a port is free in a group, or in the group of the options. -/
def isFreeInGroup (p : Prober) (port : UInt16) (address : Option Address) :
    Probing Host Bool := fun w =>
  let group := address.getD p.options.group
  if group.isMulticast then
    let target := group.endpoint port
    match p.pingGroup target w with
    | (.ok occupied, w) => (.ok !occupied, w.note (.multicastProbed target occupied))
    | (.error errno, w) =>
      if errno.isUnreachable then (.error (.networkUnreachable target errno), w)
      else (.ok false, w.note (.multicastProbeFailed target errno))
  else (.error (.invalidArgument (.notMulticast group)), w)

end Prober

end PortWarden
