import PortWarden.Config.Basic
import PortWarden.Probe.Prober
import PortWarden.Random.Generator

/-!
# Random allocation

Ports are drawn from a range and probed in the order in which they are drawn, until one is free.
Every search is the same loop, `search`, with a number of steps: the limit or the budget of a
limited search, and for an unlimited one the fuel, which only says how long we are ready to watch
it.
-/

namespace PortWarden

/-- Why an allocation ends without an answer. -/
inductive Stop where
  /-- It fails. -/
  | failure (cause : Failure)
  /-- A port was to be drawn from a range whose bounds are inverted, which aborts the program. -/
  | emptyRange
  /-- It goes on for longer than it was watched. -/
  | unfinished
  deriving DecidableEq, Repr

/-- The state behind an allocation: that of the probe, the events reported, and the random state of
the process. -/
structure World (σ : Type) extends Logged σ where
  /-- The random state of the process. -/
  randomness : Randomness

/-- A computation on the whole state, which ends with an answer or stops. -/
abbrev Allocating (σ α : Type) := ExceptT Stop (StateM (World σ)) α

/-- A probe's computation as one on the whole state. -/
def Probing.onWorld {σ α : Type} (question : Probing σ α) : Allocating σ α := fun w =>
  match question w.toLogged with
  | (.ok a, l) => (.ok a, { w with toLogged := l })
  | (.error failure, l) => (.error (.failure failure), { w with toLogged := l })

/-- Reports an event. -/
def World.note {σ : Type} (w : World σ) (event : Event) : World σ :=
  { w with toLogged := w.toLogged.note event }

/-- Draws a port of a range. -/
def draw {σ : Type} (fuel : Nat) (generator : GeneratorId) (range : PortRange) :
    Allocating σ UInt16 := fun w =>
  if range.upper < range.lower then (.error .emptyRange, w)
  else
    match w.randomness.pick fuel generator range with
    | (some port, randomness) => (.ok port, { w with randomness })
    | (none, randomness) => (.error .unfinished, { w with randomness })

/-- What a search found: the port, what the probe gave for it, and the number of ports drawn so
far. -/
structure Found (α : Type) where
  /-- The port. -/
  port : UInt16
  /-- What the probe gave for it. -/
  value : α
  /-- How many ports were drawn, this one included. -/
  attempts : Nat
  deriving DecidableEq, Repr

/-- Draws and probes up to `steps` ports, after `attempts` earlier ones. The first port that the
probe gives something for ends the search, and so does the first failure; a port for which it gives
nothing is reported by `missed`. -/
def search {σ α : Type} (draw : Allocating σ UInt16) (test : UInt16 → Probing σ (Option α))
    (missed : UInt16 → Nat → World σ → World σ) :
    (steps attempts : Nat) → World σ → Except Stop (Option (Found α)) × World σ
  | 0, _, w => (.ok none, w)
  | steps + 1, attempts, w =>
    match draw w with
    | (.error stop, w) => (.error stop, w)
    | (.ok port, w) =>
      match test port w.toLogged with
      | (.error failure, l) => (.error (.failure failure), { w with toLogged := l })
      | (.ok (some value), l) => (.ok (some ⟨port, value, attempts + 1⟩), { w with toLogged := l })
      | (.ok none, l) =>
        search draw test missed steps (attempts + 1)
          (missed port (attempts + 1) { w with toLogged := l })

/-- What a search picks ports with. -/
structure Allocator (σ : Type) where
  /-- What answers questions about ports. -/
  probe : Probe σ
  /-- The generator that ports are drawn with. -/
  generator : GeneratorId
  /-- The range from which ports are picked. -/
  range : PortRange
  /-- The range from which membership ports are picked. -/
  membershipRange : PortRange
  /-- How many ports are tried at most. -/
  attemptLimit : Option UInt64

/-- How many draws the search in a given range makes for each step from its lower to its upper
bound. -/
def drawsPerPort : Nat := 5

namespace Allocator

variable {σ : Type}

/-- The allocator that a configuration describes. -/
def ofConfig (probe : Probe σ) (generator : GeneratorId) (config : Config) : Allocator σ where
  probe := probe
  generator := generator
  range := config.range
  membershipRange := config.membershipRange
  attemptLimit := config.attemptLimit

/-- The range from which ports are picked, for membership or in general. -/
def rangeFor (a : Allocator σ) (membership : Bool) : PortRange :=
  if membership then a.membershipRange else a.range

/-- Something for a port that is free, nothing for one that is not. -/
def check (a : Allocator σ) (protocol : Protocol) (address : Option Address) (port : UInt16) :
    Probing σ (Option Unit) := do
  if ← a.probe.isAvailable port protocol address then return some () else return none

/-- Searches a range within the limit of attempts, which it is a failure to use up. -/
def searchWithinLimit {α : Type} (a : Allocator σ) (fuel : Nat) (membership : Bool)
    (test : UInt16 → Probing σ (Option α)) (missed : UInt16 → Nat → World σ → World σ) :
    Allocating σ (Found α) := do
  let draw := draw fuel a.generator (a.rangeFor membership)
  match a.attemptLimit with
  | some limit =>
    let some found ← search draw test missed limit.toNat 0
      | throw (.failure (.exhausted limit.toNat))
    return found
  | none =>
    let some found ← search draw test missed fuel 0 | throw .unfinished
    return found

/-- A random port of a configured range that is free. -/
def randomPort (a : Allocator σ) (fuel : Nat) (protocol : Protocol) (address : Option Address)
    (membership : Bool) : Allocating σ UInt16 := do
  let found ← a.searchWithinLimit fuel membership (a.check protocol address)
    fun port attempts w => w.note (.candidateInUse port attempts)
  modify (·.note (.portSelected found.port protocol found.attempts))
  return found.port

/-- A keeper for a random port of a configured range. -/
def randomKeeper (a : Allocator σ) (fuel : Nat) (protocol : Protocol) (address : Option Address)
    (membership : Bool) : Allocating σ Keeper := do
  let found ← a.searchWithinLimit fuel membership (a.probe.keep · protocol address) fun _ _ w => w
  modify (·.note (.portKept found.port protocol found.attempts))
  return found.value

/-- How many ports the search in a given range draws at most. -/
def budget (range : PortRange) : Nat := drawsPerPort * (range.upper.toNat - range.lower.toNat)

/-- A random port of a given range that is free, or none if the budget is used up before one is
found. -/
def randomPortInRange (a : Allocator σ) (fuel : Nat) (lower upper : UInt16) (protocol : Protocol)
    (address : Option Address) : Allocating σ (Option UInt16) := do
  let range : PortRange := ⟨lower, upper⟩
  if let some fault := range.fault? then throw (.failure (.invalidArgument (.range fault)))
  match ← search (draw fuel a.generator range) (a.check protocol address) (fun _ _ w => w)
    (budget range) 0 with
  | some found =>
    modify (·.note (.rangePortSelected found.port protocol found.attempts))
    return some found.port
  | none =>
    modify (·.note (.rangeExhausted range (budget range)))
    return none

end Allocator

end PortWarden
