import PortWarden.CommandLine.Help
import PortWarden.CommandLine.Report
import PortWarden.Config.Document
import PortWarden.Config.Environment
import PortWarden.Service

/-!
# Runs

A command carried out on a host. The configuration comes first, from the file, the environment and
the address given, each over the one before; then the port is checked, picked or claimed.
`Command.settle` goes as far as the report, and what is left after it is to hold a claim for its
time and give it back.
-/

namespace PortWarden.CommandLine

/-- What a program finds around itself besides its host. -/
structure Surroundings where
  /-- The variables of the environment. -/
  environment : Environment := fun _ => none
  /-- What reading a path gives. -/
  contentOf : String → Config.FileContent := fun _ => .error .noSuchFile

/-- A part of a run. -/
abbrev Running (α : Type) := ExceptT Setback (StateM (World Host)) α

namespace Running

/-- What is known without asking the host. -/
def ofExcept {α : Type} (context : Option Context) : Except Failure α → Running α
  | .ok a => pure a
  | .error failure => throw (.failed context failure)

/-- A part of the configuration. -/
def configuring {α : Type} (context : Option Context) (question : Configuring α) :
    Running α := fun w =>
  let (answer, logged) := question.run w.toLogged
  ofExcept context answer { w with toLogged := logged }

/-- A question to the service. -/
def asking {α : Type} (question : Allocating Host α) : Running α := fun w =>
  match question w with
  | (.ok a, w) => (.ok a, w)
  | (.error (.failure failure), w) => (.error (.failed none failure), w)
  | (.error .emptyRange, w) => (.error .aborted, w)
  | (.error .unfinished, w) => (.error .unfinished, w)

end Running

/-- A claim that is held for a time after it was reported. -/
structure Hold where
  /-- The keeper of the port. -/
  keeper : Keeper
  /-- For how long it is held. -/
  seconds : UInt64
  deriving DecidableEq, Repr

/-- Holds a claim for its time and gives it back. -/
def Hold.finish (h : Hold) (w : World Host) : World Host :=
  let w := { w with state := w.state.sleep h.seconds.toNat }
  { w with toLogged := h.keeper.drop w.toLogged }

namespace Command

/-- The configuration of the file that a command names, or the default one. -/
def fileConfig (c : Command) (s : Surroundings) : Running Config :=
  match c.configPath with
  | none => pure {}
  | some path => Running.ofExcept (some (.loading path)) (Config.load (s.contentOf path))

/-- Lays the address that a command gives over a configuration, which is judged anew. -/
def withAddress (c : Command) (config : Config) : Running Config :=
  match c.address with
  | none => pure config
  | some text => do
    let address ← Running.configuring none (Variable.readAddress text)
    Running.ofExcept none (config.withAddressFor c.protocol address).check

/-- The configuration under which a command is carried out. -/
def config (c : Command) (s : Surroundings) : Running Config := do
  let config ← c.fileConfig s
  let config ← Running.configuring (some .environment) (config.overlay s.environment)
  c.withAddress config

/-- The report of a picked port. -/
def pickReport (c : Command) (port : UInt16) : Report × Option Hold :=
  (⟨c.protocol, port, .picked⟩, none)

/-- The report of a claimed port, and the claim to hold. -/
def holdReport (c : Command) (keeper : Keeper) (seconds : UInt64) : Report × Option Hold :=
  (⟨c.protocol, keeper.port, .held seconds⟩, some ⟨keeper, seconds⟩)

/-- Does what a command asks for with a service, up to the report. -/
def settleWith (c : Command) (fuel : Nat) (service : Service) : Running (Report × Option Hold) := do
  let address := service.config.addressFor c.protocol
  match c.task with
  | .check port =>
    let free ← Running.asking (service.isAvailable port c.protocol address)
    return (⟨c.protocol, port, .checked free⟩, none)
  | .hold port seconds =>
    match ← Running.asking (service.keep port c.protocol address) with
    | some keeper => return c.holdReport keeper seconds
    | none => throw (.portInUse port c.protocol)
  | .pickInRange range =>
    match ← Running.asking (service.randomPortInRange fuel range.lower range.upper c.protocol) with
    | some port => return c.pickReport port
    | none => throw (.rangeInUse range c.protocol)
  | .pick membership =>
    return c.pickReport (← Running.asking (service.randomPort fuel c.protocol address membership))
  | .holdRandom membership seconds =>
    return c.holdReport
      (← Running.asking (service.randomKeeper fuel c.protocol address membership)) seconds

/-- Does what a command asks for, up to the report. -/
def settle (c : Command) (fuel : Nat) (s : Surroundings) : Running (Report × Option Hold) := do
  let service ← Running.asking (Service.ofProcess (← c.config s))
  c.settleWith fuel service

/-- Does what is left after a report. -/
def finish : Option Hold → World Host → World Host
  | none, w => w
  | some hold, w => hold.finish w

/-- Carries out a command, with `fuel` for the searches in it. -/
def run (c : Command) (fuel : Nat) (s : Surroundings) : Running Report := do
  let (report, hold) ← c.settle fuel s
  modify (finish hold)
  return report

/-- Carries out a command and tells its caller. -/
def execute (c : Command) (fuel : Nat) (s : Surroundings) (w : World Host) :
    Option Outcome × World Host :=
  let (ending, w) := c.run fuel s w
  (c.outcome w.events ending, w)

end Command

/-- The outcome of a command line that asks for no work. -/
def Detour.outcome : Detour → Outcome
  | help => { exitCode := successCode, output := helpText }
  | version => { exitCode := successCode, output := versionText }
  | fault f => { exitCode := usageCode, complaint := some ("error: " ++ f.message) }

/-- Reads a command line and carries it out, with `fuel` for the searches in it. -/
def execute (texts : List String) (fuel : Nat) (s : Surroundings) (w : World Host) :
    Option Outcome × World Host :=
  match Command.read texts with
  | .ok command => command.execute fuel s w
  | .error detour => (some detour.outcome, w)

end PortWarden.CommandLine
