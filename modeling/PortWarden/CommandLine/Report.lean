import PortWarden.CommandLine.Command
import PortWarden.Event

/-!
# Reports

What a run tells its caller: the report it ends with, as text or as JSON, or why there is none, and
the events on its way that matter enough.
-/

namespace PortWarden.CommandLine

/-! ## Reports -/

/-- What is reported of a port. -/
inductive Finding where
  /-- Whether it is free. -/
  | checked (free : Bool)
  /-- It is free and was picked. -/
  | picked
  /-- It is claimed for a time. -/
  | held (seconds : UInt64)
  deriving DecidableEq, Repr

/-- What a run ends with. -/
structure Report where
  /-- The protocol of the port. -/
  protocol : Protocol
  /-- The port. -/
  port : UInt16
  /-- What is reported of it. -/
  finding : Finding
  deriving DecidableEq, Repr

namespace Report

/-- A report as a sentence. -/
def sentence (r : Report) : String :=
  match r.finding with
  | .checked free =>
    "Port " ++ toString r.port ++ " is " ++ (if free then "" else "not ") ++ "available for a " ++
      r.protocol.name ++ " connection"
  | .picked => "Randomly selected " ++ r.protocol.name ++ " port: " ++ toString r.port
  | .held seconds =>
    "Holding " ++ r.protocol.name ++ " port " ++ toString r.port ++ " for " ++ toString seconds ++
      "s"

/-- The members of a report as a JSON object, in the order of their names. -/
def members (r : Report) : List (String × String) :=
  (match r.finding with
    | .checked free => [("available", toString free)]
    | .picked => []
    | .held _ => [("kept", "true")]) ++
  [("port", toString r.port), ("protocol", "\"" ++ r.protocol.name ++ "\"")]

/-- A report as a JSON object. -/
def object (r : Report) : String :=
  "\x7b" ++
    String.intercalate "," (r.members.map fun (name, value) => "\"" ++ name ++ "\":" ++ value) ++
    "\x7d"

/-- A report in a style, with its last line ended; a sentence stands between two empty lines. -/
def render (r : Report) : Style → String
  | .text => "\n" ++ r.sentence ++ "\n\n"
  | .json => r.object ++ "\n"

end Report

/-! ## Runs without a report -/

/-- What was being done when a run failed, where it is told. -/
inductive Context where
  /-- The configuration file was loaded. -/
  | loading (path : String)
  /-- The variables of the environment were read. -/
  | environment
  deriving DecidableEq, Repr

/-- The words in which it is told what was being done. -/
def Context.message : Context → String
  | loading path => "Failed to load config " ++ path
  | environment => "Invalid AVAILABLE_PORT_* environment"

/-- Why a run ends without a report. -/
inductive Setback where
  /-- The port that was to be claimed is in use. -/
  | portInUse (port : UInt16) (protocol : Protocol)
  /-- No port of the given range was found free. -/
  | rangeInUse (range : PortRange) (protocol : Protocol)
  /-- It fails. -/
  | failed (context : Option Context) (failure : Failure)
  /-- A port was to be drawn from a range whose bounds are inverted, which aborts the program. -/
  | aborted
  /-- It goes on for longer than it was watched. -/
  | unfinished
  deriving DecidableEq, Repr

/-- A text in which every line after the first is indented. -/
def indentRest (width : Nat) (text : String) : String :=
  String.ofList
    (text.toList.flatMap fun c => if c = '\n' then '\n' :: List.replicate width ' ' else [c])

/-- A list of causes, each below what it causes; several are numbered. -/
def causesText : List String → String
  | [] => ""
  | [cause] => "\n\nCaused by:\n    " ++ indentRest 4 cause
  | causes =>
    "\n\nCaused by:" ++ String.join ((List.range causes.length).zip causes |>.map fun (n, cause) =>
      "\n    " ++ toString n ++ ": " ++ indentRest 7 cause)

/-- What was wrong, from what was being done down to the error beneath the failure. -/
def Setback.chain (context : Option Context) (failure : Failure) : List String :=
  (context.map Context.message).toList ++ failure.message :: failure.source?.toList

/-- The words in which it is told why there is no report. -/
def Setback.message : Setback → String
  | portInUse port protocol =>
    "Port " ++ toString port ++ " is not available for a " ++ protocol.name ++ " connection"
  | rangeInUse range protocol => "No available " ++ protocol.name ++ " port in range " ++ range.text
  | failed context failure =>
    match chain context failure with
    | [] => "Error: "
    | error :: causes => "Error: " ++ error ++ causesText causes
  | aborted => "cannot sample empty range"
  | unfinished => "the run was not watched to its end"

/-! ## Events -/

/-- The level from which on events are shown. -/
def Command.threshold (c : Command) : Level :=
  match c.verbosity with
  | 0 => .warning
  | 1 => .info
  | _ => .debug

/-- Whether an event is shown. -/
def Command.shows (c : Command) (e : Event) : Bool := c.threshold.rank ≤ e.level.rank

/-! ## Outcomes -/

/-- What the caller of the program sees. -/
structure Outcome where
  /-- The exit code. -/
  exitCode : Nat
  /-- What is written to the standard output. -/
  output : String := ""
  /-- The lines of the events shown. -/
  log : List String := []
  /-- Why there is no report, if there is none. -/
  complaint : Option String := none
  deriving DecidableEq, Repr

/-- What is written to the standard error output. -/
def Outcome.errors (o : Outcome) : String :=
  String.join ((o.log ++ o.complaint.toList).map (· ++ "\n"))

/-- The exit code of a run that found what it was asked for. -/
def successCode : Nat := 0

/-- The exit code of a run without a report. -/
def failureCode : Nat := 1

/-- The exit code for a command line that makes no sense. -/
def usageCode : Nat := 2

/-- The exit code of a program that is aborted. -/
def abortCode : Nat := 101

/-- The outcome of a run that ended in a report or without one, after events; a run that was not
watched to its end has none. -/
def Command.outcome (c : Command) (events : List Event) (ending : Except Setback Report) :
    Option Outcome :=
  let log := (events.filter c.shows).map Event.line
  match ending with
  | .ok report => some { exitCode := successCode, output := report.render c.style, log }
  | .error .unfinished => none
  | .error .aborted =>
    some { exitCode := abortCode, log, complaint := some Setback.aborted.message }
  | .error setback => some { exitCode := failureCode, log, complaint := some setback.message }

end PortWarden.CommandLine
