import PortWarden.Allocator

/-!
# The service

A configuration, a prober and an allocator under one value. A service is only made for a
configuration with which nothing is wrong, so that what it passes on to its parts is in order.
-/

namespace PortWarden

/-- Answers questions about ports under a configuration. -/
structure Service where
  /-- The configuration. -/
  config : Config
  /-- What ports are checked with. -/
  prober : Prober
  /-- What ports are drawn with. -/
  generator : GeneratorId

namespace Service

/-- The service around a given prober. -/
def ofProber (config : Config) (prober : Prober) (generator : GeneratorId) :
    Except Failure Service := do
  return ⟨← config.check, prober, generator⟩

/-- The service that probes as its configuration says, on the interfaces of the host. -/
def ofGenerator (config : Config) (generator : GeneratorId) : Except Failure Service :=
  ofProber config { options := config.probeOptions } generator

/-- The service that draws with the generator of the process. The generator is asked for first, so
that the kind it gets is settled even by a configuration that is then refused. -/
def ofProcess {σ : Type} (config : Config) : Allocating σ Service := fun w =>
  let (generator, randomness, events) := w.randomness.share config.fastRandom
  let w := events.foldl World.note { w with randomness }
  match ofGenerator config generator with
  | .ok service => (.ok service, w)
  | .error failure => (.error (.failure failure), w)

/-- The allocator of a service. -/
def allocator (s : Service) : Allocator Host := .ofConfig s.prober.probe s.generator s.config

/-- Whether a port is free. -/
def isAvailable (s : Service) (port : UInt16) (protocol : Protocol) (address : Option Address) :
    Allocating Host Bool :=
  (s.prober.isAvailable port protocol address).onWorld

/-- Whether a port is free on the configured address. -/
def isAvailableByDefault (s : Service) (port : UInt16) (protocol : Protocol) :
    Allocating Host Bool :=
  s.isAvailable port protocol (s.config.addressFor protocol)

/-- Claims a port if it is free. -/
def keep (s : Service) (port : UInt16) (protocol : Protocol) (address : Option Address) :
    Allocating Host (Option Keeper) :=
  (s.prober.keep port protocol address).onWorld

/-- A random free port of a configured range. -/
def randomPort (s : Service) (fuel : Nat) (protocol : Protocol) (address : Option Address)
    (membership : Bool) : Allocating Host UInt16 :=
  s.allocator.randomPort fuel protocol address membership

/-- A random port of the general range that is free on the configured address. -/
def randomPortByDefault (s : Service) (fuel : Nat) (protocol : Protocol) : Allocating Host UInt16 :=
  s.randomPort fuel protocol (s.config.addressFor protocol) false

/-- A keeper for a random port of a configured range. -/
def randomKeeper (s : Service) (fuel : Nat) (protocol : Protocol) (address : Option Address)
    (membership : Bool) : Allocating Host Keeper :=
  s.allocator.randomKeeper fuel protocol address membership

/-- A random port of a given range that is free on the configured address. -/
def randomPortInRange (s : Service) (fuel : Nat) (lower upper : UInt16) (protocol : Protocol) :
    Allocating Host (Option UInt16) :=
  s.allocator.randomPortInRange fuel lower upper protocol (s.config.addressFor protocol)

end Service

end PortWarden
