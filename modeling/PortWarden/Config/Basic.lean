import PortWarden.Failure
import PortWarden.Port.Protocol
import PortWarden.Probe.Options

/-!
# Configurations

The settings of the library and their defaults. A configuration may pass through states that make no
sense while its sources are laid over each other; `Config.check` judges the final one.
-/

namespace PortWarden

/-- The range from which ports are picked by default. Its neighbours below and above are commonly
taken. -/
def defaultRange : PortRange := ⟨20001, 29999⟩

/-- The range from which membership ports are picked by default. -/
def defaultMembershipRange : PortRange := ⟨41000, 61000⟩

/-- The settings of the library. -/
structure Config where
  /-- The range from which ports are picked. -/
  range : PortRange := defaultRange
  /-- The range from which membership ports are picked. -/
  membershipRange : PortRange := defaultMembershipRange
  /-- The group in which multicast ports are checked when a question names none. -/
  group : Option Address := none
  /-- The address on which stream ports are checked when a question names none. -/
  bindAddress : Option Address := none
  /-- How long an answer is waited for, in milliseconds. -/
  timeout : UInt64 := defaultTimeout
  /-- Whether ports are picked by a fast generator rather than by the operating system's. -/
  fastRandom : Bool := false
  /-- Whether a port on a link-local address on which no listener can be bound counts as free. -/
  linkLocalWorkaround : Bool := true
  /-- How many ports are tried at most; without a limit, until one is free. -/
  attemptLimit : Option UInt64 := none
  /-- The interface through which messages to IPv4 groups leave. -/
  multicastInterface : Option IPv4 := none
  deriving DecidableEq, Repr

namespace Config

/-- What is wrong with a configuration, if anything is. -/
def fault? (c : Config) : Option ConfigFault :=
  (c.range.fault?.map .range).or <|
    (c.membershipRange.fault?.map .membershipRange).or <|
      ((c.group.filter (!·.isMulticast)).map .notMulticast).or <|
        if c.timeout = 0 then some .zeroTimeout
        else if c.attemptLimit = some 0 then some .zeroAttemptLimit
        else none

/-- Passes on a configuration with which nothing is wrong. -/
def check (c : Config) : Except Failure Config :=
  match c.fault? with
  | none => .ok c
  | some fault => .error (.config fault)

/-- The address on which a protocol's ports are checked when a question names none. -/
def addressFor (c : Config) : Protocol → Option Address
  | .stream => c.bindAddress
  | .multicast => c.group

/-- Changes the address on which a protocol's ports are checked when a question names none. -/
def withAddressFor (c : Config) (protocol : Protocol) (address : Address) : Config :=
  match protocol with
  | .stream => { c with bindAddress := some address }
  | .multicast => { c with group := some address }

/-- An address given to a protocol is the one that it has. -/
@[simp]
theorem addressFor_withAddressFor (c : Config) (protocol : Protocol) (address : Address) :
    (c.withAddressFor protocol address).addressFor protocol = some address := by
  cases protocol <;> rfl

/-- The range from which ports are picked, for membership or in general. -/
def rangeFor (c : Config) (membership : Bool) : PortRange :=
  if membership then c.membershipRange else c.range

/-- How ports are probed under a configuration. -/
def probeOptions (c : Config) : ProbeOptions where
  group := c.group.getD defaultGroup
  timeout := c.timeout
  linkLocalWorkaround := c.linkLocalWorkaround
  multicastInterface := c.multicastInterface

end Config

end PortWarden
