import PortWarden.CommandLine.Run

/-!
# The program

The command line on the arguments, the environment, the files and the random numbers of the process
that runs it. The host is a value like everywhere else: one that has the loopback interface alone
and on which nothing listens.
-/

namespace PortWarden.Main

open PortWarden.CommandLine

/-- How long a search is watched. -/
def fuel : Nat := 0x4000000000000000

/-- The loopback interface. -/
def loopback : InterfaceEntry := ⟨"lo", .internet ⟨.v4 .loopback, 0⟩⟩

/-- A host that has the loopback interface alone and on which nothing listens. -/
def loopbackHost : Host where
  assigned := [⟨.v4 .loopback, 0⟩]
  interfaces := [loopback]

/-- The error number of a failed reading. -/
def errnoOf : IO.Error → Errno
  | .noFileOrDirectory .. => .noSuchFile
  | .permissionDenied .. => .accessDenied
  | .inappropriateType _ code _ =>
    if code.toNat = Errno.notADirectory.number then .notADirectory else .isADirectory
  | _ => .inputOutput

/-- Reads the file of a path. -/
def readPath (path : String) : IO Config.FileContent := do
  try
    return .ok (← IO.FS.readBinFile path)
  catch e =>
    return .error (errnoOf e)

/-- What the command can find around itself. The only path it reads is the one that it names. -/
def surroundings (c : Command) : IO Surroundings := do
  let values ← Variable.all.mapM fun v => return (v.key, ← IO.getEnv v.key)
  let content ← match c.configPath with
    | none => pure (Except.error Errno.noSuchFile)
    | some path => readPath path
  return { environment := fun key => (values.lookup key).join, contentOf := fun _ => content }

/-- The words that bytes make, four each, the lowest first. -/
def words : List UInt8 → List UInt32
  | a :: b :: c :: d :: rest =>
    (a.toUInt32 ||| b.toUInt32 <<< 8 ||| c.toUInt32 <<< 16 ||| d.toUInt32 <<< 24) :: words rest
  | _ => []

/-- The random words of the operating system. -/
def entropy : IO Entropy := do
  return .cycle (words (← IO.getRandomBytes 4096).toList)

/-- Waits for as long as the calls made have slept. -/
def wait (calls : List Call) : IO Unit :=
  for call in calls do
    if let .sleep seconds := call.action then
      for _ in [0:seconds] do IO.sleep 1000

/-- Shows an outcome, waiting between what is reported and what comes after it. -/
def finish (outcome : Outcome) (calls : List Call) : IO UInt32 := do
  let output ← IO.getStdout
  output.putStr outcome.output
  output.flush
  wait calls
  (← IO.getStderr).putStr outcome.errors
  return UInt32.ofNat outcome.exitCode

end PortWarden.Main

/-- Runs the program. -/
def main (arguments : List String) : IO UInt32 := do
  match PortWarden.CommandLine.Command.read arguments with
  | .error detour => PortWarden.Main.finish detour.outcome []
  | .ok command =>
    let randomness := { entropy := ← PortWarden.Main.entropy }
    let surroundings ← PortWarden.Main.surroundings command
    match command.execute PortWarden.Main.fuel surroundings
      { state := PortWarden.Main.loopbackHost, randomness } with
    | (some outcome, world) => PortWarden.Main.finish outcome world.state.calls
    | (none, _) => return UInt32.ofNat PortWarden.CommandLine.failureCode
