import PortWarden.Host.Basic
import PortWarden.Port.Protocol
import PortWarden.Port.Range
import PortWarden.Text.Quoted

/-!
# Events

What the library reports of its work as it goes. An event is a value; its level, its message and its
fields are functions of it, and whether it is shown is the caller's choice.
-/

namespace PortWarden

/-- How much an event matters. -/
inductive Level where
  | debug
  | info
  | warning
  deriving DecidableEq, Repr

/-- The name of a level. -/
def Level.name : Level → String
  | debug => "DEBUG"
  | info => "INFO"
  | warning => "WARN"

/-- The rank of a level; what matters more ranks higher. -/
def Level.rank : Level → Nat
  | debug => 0
  | info => 1
  | warning => 2

/-- Something that happened. -/
inductive Event where
  /-- A listener was bound. -/
  | bindSucceeded (target : Endpoint)
  /-- A listener could not be bound. -/
  | bindFailed (target : Endpoint) (cause : Errno)
  /-- A listener could not be bound on a link-local address, which is taken for a free port. -/
  | linkLocalAssumedFree (target : Endpoint) (cause : Errno)
  /-- A keeper gives its port back. -/
  | portReleased (port : UInt16)
  /-- The addresses of the interfaces were listed. -/
  | interfacesListed (count : Nat)
  /-- The port is in use on one interface. -/
  | interfaceInUse (port : UInt16) (interface : String) (address : Address)
  /-- Somebody answered in a group. -/
  | groupAnswered (target sender : Endpoint)
  /-- Waiting for an answer failed. -/
  | receiveFailed (target : Endpoint) (cause : Errno)
  /-- A group was asked to the end. -/
  | multicastProbed (target : Endpoint) (occupied : Bool)
  /-- A group could not be asked. -/
  | multicastProbeFailed (target : Endpoint) (cause : Errno)
  /-- A random port turned out to be free. -/
  | portSelected (port : UInt16) (protocol : Protocol) (attempts : Nat)
  /-- A random port turned out to be in use. -/
  | candidateInUse (port : UInt16) (attempts : Nat)
  /-- A random port was kept. -/
  | portKept (port : UInt16) (protocol : Protocol) (attempts : Nat)
  /-- A random port of a given range turned out to be free. -/
  | rangePortSelected (port : UInt16) (protocol : Protocol) (attempt : Nat)
  /-- No port of a given range was found free. -/
  | rangeExhausted (range : PortRange) (budget : Nat)
  /-- The generator of the process was made. -/
  | generatorMade (fast : Bool)
  /-- The generator of the process is not of the kind asked for. -/
  | generatorOfOtherKind (requestedFast : Bool)
  /-- The membership range of the environment was malformed. -/
  | membershipRangeIgnored (value : String) (default : PortRange)
  deriving DecidableEq, Repr

/-- The value of a field of an event. -/
inductive FieldValue where
  | number (n : Nat)
  | flag (b : Bool)
  /-- Text that is shown as it is. -/
  | text (s : String)
  /-- Text that is shown in quotes. -/
  | quoted (s : String)
  deriving DecidableEq, Repr

/-- The written form of the value of a field. -/
def FieldValue.shown : FieldValue → String
  | number n => toString n
  | flag b => toString b
  | text s => s
  | quoted s => String.ofList (Text.quoted s.toList)

namespace Event

/-- How much an event matters. -/
def level : Event → Level
  | linkLocalAssumedFree .. | receiveFailed .. | multicastProbeFailed ..
  | membershipRangeIgnored .. => .warning
  | portSelected .. | portKept .. | rangePortSelected .. => .info
  | _ => .debug

/-- What an event says. -/
def message : Event → String
  | bindSucceeded _ => "bind succeeded"
  | bindFailed .. => "bind failed"
  | linkLocalAssumedFree .. => "bind failed on IPv6 link-local address, assuming available"
  | portReleased _ => "releasing kept port"
  | interfacesListed _ => "enumerated local interface addresses"
  | interfaceInUse .. => "port in use on interface"
  | groupAnswered .. => "multicast group answered"
  | receiveFailed .. => "multicast receive failed"
  | multicastProbed .. => "multicast probe finished"
  | multicastProbeFailed .. => "multicast probe failed, reporting port in use"
  | portSelected .. => "randomly selected available port"
  | candidateInUse .. => "candidate port in use"
  | portKept .. => "randomly selected and kept port"
  | rangePortSelected .. => "selected available port in range"
  | rangeExhausted .. => "no available port found in range"
  | generatorMade _ => "initializing process-wide port rng"
  | generatorOfOtherKind _ => "process-wide port rng already initialized with the other policy"
  | membershipRangeIgnored .. => "ignoring malformed membership port range"

/-- The fields of an event, in the order in which they are shown. -/
def fields : Event → List (String × FieldValue)
  | bindSucceeded target => [("target", .text target.text)]
  | bindFailed target cause => [("target", .text target.text), ("error", .text cause.message)]
  | linkLocalAssumedFree target cause =>
    [("target", .text target.text), ("error", .text cause.message)]
  | portReleased port => [("port", .number port.toNat)]
  | interfacesListed count => [("count", .number count)]
  | interfaceInUse port interface address =>
    [("port", .number port.toNat), ("interface", .text interface), ("addr", .text address.text)]
  | groupAnswered target sender => [("target", .text target.text), ("from", .text sender.text)]
  | receiveFailed target cause => [("target", .text target.text), ("error", .text cause.message)]
  | multicastProbed target occupied => [("target", .text target.text), ("occupied", .flag occupied)]
  | multicastProbeFailed target cause =>
    [("target", .text target.text), ("error", .text cause.message)]
  | portSelected port protocol attempts =>
    [("port", .number port.toNat), ("protocol", .text protocol.name),
      ("attempts", .number attempts)]
  | candidateInUse port attempts => [("port", .number port.toNat), ("attempts", .number attempts)]
  | portKept port protocol attempts =>
    [("port", .number port.toNat), ("protocol", .text protocol.name),
      ("attempts", .number attempts)]
  | rangePortSelected port protocol attempt =>
    [("port", .number port.toNat), ("protocol", .text protocol.name), ("attempt", .number attempt)]
  | rangeExhausted range budget => [("range", .text range.text), ("budget", .number budget)]
  | generatorMade fast => [("fast", .flag fast)]
  | generatorOfOtherKind requestedFast => [("requested_fast", .flag requestedFast)]
  | membershipRangeIgnored value default =>
    [("value", .quoted value), ("default", .text default.text)]

/-- The line that shows an event. -/
def line (e : Event) : String :=
  e.level.name ++ " " ++ e.message ++
    String.join (e.fields.map fun (name, value) => " " ++ name ++ "=" ++ value.shown)

end Event

/-- A state together with the events reported while it came about. -/
structure Logged (σ : Type) where
  /-- The state. -/
  state : σ
  /-- The events, the latest first. -/
  log : List Event := []

/-- Reports an event. -/
def Logged.note {σ : Type} (w : Logged σ) (event : Event) : Logged σ :=
  { w with log := event :: w.log }

/-- The events in order. -/
def Logged.events {σ : Type} (w : Logged σ) : List Event := w.log.reverse

end PortWarden
