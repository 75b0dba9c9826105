import PortWarden.Event
import PortWarden.Random.Uniform
import PortWarden.Random.Xoshiro

/-!
# Generators

A generator of random ports is either fast, seeded once and from then on computing, or strong,
taking each word from the operating system. Generators are shared by handles: every holder of a
handle goes on with the one sequence. One of them can be the generator of the process, whose kind
the first request for it decides.
-/

namespace PortWarden

/-- A generator of random words. -/
inductive Generator where
  /-- Computes its words. -/
  | fast (state : Xoshiro)
  /-- Takes its words from the operating system. -/
  | strong
  deriving DecidableEq, Repr

namespace Generator

/-- Whether a generator computes its words. -/
def isFast : Generator → Bool
  | fast _ => true
  | strong => false

/-- The generator that computes its words from a short seed. -/
def seeded (seed : UInt64) : Generator := fast (.ofSeed seed)

/-- A new generator of a kind. A fast one takes its seed from the source, a strong one nothing. -/
def ofKind (fastKind : Bool) (e : Entropy) : Generator × Entropy :=
  if fastKind then
    let (state, e) := Xoshiro.ofEntropy e
    (fast state, e)
  else (strong, e)

/-- The next word. -/
def next (g : Generator) (e : Entropy) : UInt32 × Generator × Entropy :=
  match g with
  | fast state =>
    let (word, state) := state.next
    (word, fast state, e)
  | strong =>
    let (word, e) := e.next
    (word, strong, e)

/-- Takes words until one stands for a port of the range, which has to be one whose bounds are in
order. `fuel` limits how many words may be refused; there is no answer if they all are. -/
def pick (r : PortRange) : Nat → Generator → Entropy → Option UInt16 × Generator × Entropy
  | 0, g, e => (none, g, e)
  | fuel + 1, g, e =>
    let (word, g, e) := g.next e
    match r.pick? word with
    | some port => (some port, g, e)
    | none => pick r fuel g e

end Generator

/-- The name of a generator among those of the process. -/
abbrev GeneratorId := Nat

/-- The random state of a process. -/
structure Randomness where
  /-- The words of the operating system. -/
  entropy : Entropy
  /-- The generators by their handles. -/
  generators : List Generator := []
  /-- The generator of the process, once there is one. -/
  shared : Option GeneratorId := none

namespace Randomness

/-- The generator of a handle. A handle that was never given out stands for the operating system. -/
def generator (r : Randomness) (id : GeneratorId) : Generator := r.generators.getD id .strong

/-- Adds a generator and gives out its handle. -/
def add (r : Randomness) (g : Generator) : GeneratorId × Randomness :=
  (r.generators.length, { r with generators := r.generators ++ [g] })

/-- Adds a generator of a kind. -/
def addOfKind (r : Randomness) (fast : Bool) : GeneratorId × Randomness :=
  let (g, entropy) := Generator.ofKind fast r.entropy
  { r with entropy }.add g

/-- The generator of the process. The first request makes it, of the kind asked for; later ones get
the same one, whatever they ask for. -/
def share (r : Randomness) (fast : Bool) : GeneratorId × Randomness × List Event :=
  match r.shared with
  | none =>
    let (id, r) := r.addOfKind fast
    (id, { r with shared := some id }, [.generatorMade fast])
  | some id =>
    (id, r, if (r.generator id).isFast = fast then [] else [.generatorOfOtherKind fast])

/-- Draws a port of a range whose bounds are in order with the generator of a handle. -/
def pick (r : Randomness) (fuel : Nat) (id : GeneratorId) (range : PortRange) :
    Option UInt16 × Randomness :=
  let (port, g, entropy) := Generator.pick range fuel (r.generator id) r.entropy
  (port, { r with entropy, generators := r.generators.set id g })

end Randomness

end PortWarden
