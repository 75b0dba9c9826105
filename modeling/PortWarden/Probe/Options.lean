import PortWarden.Net.Address

/-!
# Probe options

The choices that a prober leaves to its caller, and their defaults.
-/

namespace PortWarden

/-- The group that is asked when none is given, `239.192.81.1`. -/
def defaultGroup : Address := .v4 ⟨239, 192, 81, 1⟩

/-- How long an answer is waited for by default, in milliseconds. -/
def defaultTimeout : UInt64 := 2000

/-- How ports are probed. -/
structure ProbeOptions where
  /-- The group that is asked when a question names none. -/
  group : Address := defaultGroup
  /-- How long an answer is waited for, in milliseconds. -/
  timeout : UInt64 := defaultTimeout
  /-- Whether a port on a link-local address on which no listener can be bound counts as free. -/
  linkLocalWorkaround : Bool := true
  /-- The interface through which messages to IPv4 groups leave; the host chooses if there is
  none. -/
  multicastInterface : Option IPv4 := none
  deriving DecidableEq, Repr

end PortWarden
