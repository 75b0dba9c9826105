import PortWarden.Probe.Multicast
import PortWarden.Port.Protocol

/-!
# Probers

The two questions that can be asked about a port, for either protocol: whether it is free, and to
have it if it is. `Probe` is the interface through which a search asks them, so that a search can be
run over other answers as well.
-/

namespace PortWarden

/-- Something that answers questions about ports by a state of its own. -/
structure Probe (σ : Type) where
  /-- Whether a port is free, on an address or on the whole host. -/
  isAvailable : UInt16 → Protocol → Option Address → Probing σ Bool
  /-- Claims a port if it is free. -/
  keep : UInt16 → Protocol → Option Address → Probing σ (Option Keeper)

namespace Prober

/-- Whether a port is free: for streams on an address or on the whole host, for multicast in a
group. -/
def isAvailable (p : Prober) (port : UInt16) (protocol : Protocol) (address : Option Address) :
    Probing Host Bool :=
  match protocol with
  | .stream => released (p.claimStream port address)
  | .multicast => p.isFreeInGroup port address

/-- Claims a port if it is free. Multicast ports are in use by answering, so they cannot be kept. -/
def keep (p : Prober) (port : UInt16) (protocol : Protocol) (address : Option Address) :
    Probing Host (Option Keeper) :=
  match protocol with
  | .stream => p.claimStream port address
  | .multicast => throw (.invalidArgument .multicastKeep)

/-- A prober as something that answers questions about ports by the state of the host. -/
def probe (p : Prober) : Probe Host where
  isAvailable := p.isAvailable
  keep := p.keep

end Prober

end PortWarden
