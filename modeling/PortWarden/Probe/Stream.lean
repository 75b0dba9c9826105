import PortWarden.Keeper
import PortWarden.Port.Interface
import PortWarden.Probe.Options

/-!
# Stream ports

A stream port is free on an address if a listener can be bound to it. It is free on the whole host
if that succeeds on the wildcard and on every interface address: a wildcard listener can be allowed
beside one on a single address, and the other way round. Each listener but the last is closed before
the next is bound, so the checks do not disturb each other.
-/

namespace PortWarden

/-- A question about ports, which ends with an answer or a failure and in either case leaves the
host changed and the events reported. -/
abbrev Probing (σ α : Type) := ExceptT Failure (StateM (Logged σ)) α

/-- How many connections may wait at a listener. -/
def listenBacklog : Nat := 50

/-- Binds a listener to an endpoint. -/
def openListener (target : Endpoint) : SystemCall SocketId := do
  let id ← Host.create target.family .stream
  Host.closingOnError id do
    Host.reuseAddress id
    Host.bind id .stream target
    Host.listen id listenBacklog
  return id

/-- How ports are checked and claimed on the host. -/
structure Prober where
  /-- The caller's choices. -/
  options : ProbeOptions := {}
  /-- Where the interface addresses come from. -/
  interfaces : InterfaceSource := .system
  deriving DecidableEq, Repr

namespace Prober

/-- Claims a port on one address. An unreachable network is a failure. On a link-local address every
other error is taken for a free port, if the options say so: the port is claimed without a socket.
Otherwise an error means that the port is in use. -/
def claim (p : Prober) (target : Endpoint) : Probing Host (Option Keeper) := fun w =>
  match openListener target w.state with
  | (.ok id, host) =>
    (.ok (some ⟨target.port, some id⟩), Logged.note ⟨host, w.log⟩ (.bindSucceeded target))
  | (.error errno, host) =>
    if errno.isUnreachable then (.error (.networkUnreachable target errno), ⟨host, w.log⟩)
    else if p.options.linkLocalWorkaround && target.address.isLinkLocal then
      (.ok (some ⟨target.port, none⟩),
        Logged.note ⟨host, w.log⟩ (.linkLocalAssumedFree target errno))
    else (.ok none, Logged.note ⟨host, w.log⟩ (.bindFailed target errno))

/-- Turns a claim into a check: a claim that succeeds is given back at once. -/
def released (claim : Probing Host (Option Keeper)) : Probing Host Bool := fun w =>
  match claim w with
  | (.ok (some keeper), w) => (.ok true, keeper.drop w)
  | (.ok none, w) => (.ok false, w)
  | (.error failure, w) => (.error failure, w)

/-- Whether a port is free on one address. -/
def isFree (p : Prober) (target : Endpoint) : Probing Host Bool := released (p.claim target)

/-- Whether a port is free on each of some interface addresses; the first on which it is in use
settles it. -/
def isFreeOnEach (p : Prober) (port : UInt16) : List InterfaceAddress → Probing Host Bool
  | [] => pure true
  | i :: is => do
    if ← p.isFree (i.endpoint port) then p.isFreeOnEach port is
    else
      modify (·.note (.interfaceInUse port i.name i.address))
      return false

/-- Claims a port on the whole host: it has to be free on the wildcard, then on every interface
address, and is then claimed on the wildcard. -/
def claimEverywhere (p : Prober) (port : UInt16) : Probing Host (Option Keeper) := do
  let wildcard := Address.wildcard.endpoint port
  if ← p.isFree wildcard then
    if ← p.isFreeOnEach port (← p.interfaces.addresses) then p.claim wildcard else return none
  else return none

/-- Claims a port on one address, or on the whole host. -/
def claimStream (p : Prober) (port : UInt16) : Option Address → Probing Host (Option Keeper)
  | none => p.claimEverywhere port
  | some address => p.claim (address.endpoint port)

end Prober

end PortWarden
