import PortWarden.CommandLine.Argument
import PortWarden.Port.Protocol

/-!
# Commands

What a command line asks for, and how it is read. An argument that was seen is taken only when the
next one is reached or the command line ends, for until then its value may be yet to come; of two
faults the one met first is reported, and a fault of the argument that was seen last gives way to
one of an unexpected argument after it.
-/

namespace PortWarden.CommandLine

open PortWarden.Text

/-! ## What is asked for -/

/-- What is to be done about a port. -/
inductive Task where
  /-- Tell whether a port is free. -/
  | check (port : UInt16)
  /-- Claim a port and hold it. -/
  | hold (port : UInt16) (seconds : UInt64)
  /-- Find a random free port of a given range. -/
  | pickInRange (range : PortRange)
  /-- Find a random free port of a configured range. -/
  | pick (membership : Bool)
  /-- Claim a random free port of a configured range and hold it. -/
  | holdRandom (membership : Bool) (seconds : UInt64)
  deriving DecidableEq, Repr

/-- How the result is written. -/
inductive Style where
  | text
  | json
  deriving DecidableEq, Repr

/-- What a command line asks for. -/
structure Command where
  /-- The protocol of the port. -/
  protocol : Protocol
  /-- What is to be done. -/
  task : Task
  /-- The address or group, written or by name. -/
  address : Option String := none
  /-- The path of the configuration file. -/
  configPath : Option String := none
  /-- How the result is written. -/
  style : Style := .text
  /-- How many times it asks for more to be reported of the work. -/
  verbosity : Nat := 0
  deriving DecidableEq, Repr

/-- Why a command line asks for no work. -/
inductive Detour where
  /-- It asks how to use the program. -/
  | help
  /-- It asks for the version of the program. -/
  | version
  /-- It makes no sense. -/
  | fault (fault : UsageFault)
  deriving DecidableEq, Repr

/-! ## Pieces -/

/-- A piece of a command line. -/
inductive Piece where
  /-- Two dashes, after which names have no meaning. -/
  | escape
  /-- A name after two dashes, with a value if there is an equals sign. -/
  | named (name : String) (value : Option String)
  /-- Letters after one dash. -/
  | letters (letters : List Char)
  /-- Anything else, a single dash included. -/
  | plain (text : String)
  deriving DecidableEq, Repr

/-- The piece that a name makes, with a value after the first equals sign. -/
def Piece.ofName (cs : List Char) : Piece :=
  match cs.span (· != '=') with
  | (name, []) => .named (String.ofList name) none
  | (name, _ :: value) => .named (String.ofList name) (some (String.ofList value))

/-- The piece that a text is before an escape. -/
def Piece.ofText (text : String) : Piece :=
  match text.toList with
  | ['-', '-'] => .escape
  | '-' :: '-' :: cs => .ofName cs
  | '-' :: c :: cs => .letters (c :: cs)
  | _ => .plain text

/-! ## What was given -/

/-- What the arguments taken so far have given. -/
structure Given where
  protocol : Option Protocol := none
  port : Option UInt16 := none
  address : Option String := none
  membership : Bool := false
  range : Option PortRange := none
  keep : Option UInt64 := none
  configPath : Option String := none
  json : Bool := false
  verbosity : Nat := 0
  /-- The arguments in the order in which they were taken. -/
  arguments : List Argument := []
  deriving DecidableEq, Repr

namespace Given

/-- Reads a protocol. -/
def readProtocol (value : String) : Except ValueFault Protocol :=
  match Protocol.ofName? value with
  | some protocol => .ok protocol
  | none => .error (.argument (.unknownProtocol value))

/-- Reads a port. A number of 64 bits that is none is told apart from what is no such number. -/
def readPort (value : String) : Except ValueFault UInt16 :=
  match readInt maxInt64 value.toList with
  | .error fault => .error (.number fault)
  | .ok n => if 0 ≤ n ∧ n ≤ maxUInt16 then .ok (UInt16.ofNat n.toNat) else .error (.noPort n)

/-- Reads a number of seconds. -/
def readSeconds (value : String) : Except ValueFault UInt64 :=
  (readUInt64 value.toList).mapError .number

/-- Reads a range. -/
def readRange (value : String) : Except ValueFault PortRange :=
  (PortRange.read value).mapError (.argument ∘ .range)

/-- Stores what a value is read as. -/
def store {α : Type} (g : Given) (a : Argument) (value : String)
    (read : String → Except ValueFault α) (set : α → Given) : Except Detour Given :=
  match read value with
  | .ok x => .ok { set x with arguments := g.arguments ++ [a] }
  | .error fault => .error (.fault (.invalidValue value a fault))

/-- Takes the value of an argument. -/
def takeValue (g : Given) (a : Argument) (value : String) : Except Detour Given :=
  match a with
  | .protocol => g.store a value readProtocol fun protocol => { g with protocol := some protocol }
  | .port => g.store a value readPort fun port => { g with port := some port }
  | .address => g.store a value .ok fun address => { g with address := some address }
  | .range => g.store a value readRange fun range => { g with range := some range }
  | .keep => g.store a value readSeconds fun seconds => { g with keep := some seconds }
  | .config =>
    if value.isEmpty then .error (.fault (.missingValue a))
    else g.store a value .ok fun path => { g with configPath := some path }
  | flag => .error (.fault (.unexpectedValue value flag))

/-- Takes a flag. -/
def takeFlag (g : Given) (a : Argument) : Except Detour Given :=
  let taken := { g with arguments := g.arguments ++ [a] }
  match a with
  | .membership => .ok { taken with membership := true }
  | .json => .ok { taken with json := true }
  | .verbose => .ok { taken with verbosity := g.verbosity + 1 }
  | .help => .error .help
  | .version => .error .version
  | option => .error (.fault (.missingValue option))

/-- Takes an argument with the value that was found for it. That a value is missing is found before
that the argument was given already, and that before what is wrong with the value. -/
def take (g : Given) (a : Argument) (value : Option String) : Except Detour Given :=
  if a.form != .flag && value.isNone then .error (.fault (.missingValue a))
  else if g.arguments.contains a && !a.isRepeatable then .error (.fault (.repeated a))
  else
    match value with
    | some value => g.takeValue a value
    | none => g.takeFlag a

/-- The first argument given that conflicts with others, and the others. -/
def conflict? (g : Given) : Option UsageFault :=
  g.arguments.findSome? fun a =>
    match g.arguments.filter a.conflicts with
    | [] => none
    | others => some (.conflict a others)

/-- What is to be done. Arguments that conflict with a port or a range are not looked at. -/
def task (g : Given) : Task :=
  match g.port, g.range, g.keep with
  | some port, _, some seconds => .hold port seconds
  | some port, _, none => .check port
  | none, some range, _ => .pickInRange range
  | none, none, some seconds => .holdRandom g.membership seconds
  | none, none, none => .pick g.membership

/-- What was asked for, once everything is given. -/
def command (g : Given) : Except Detour Command :=
  match g.conflict?, g.protocol with
  | some fault, _ => .error (.fault fault)
  | none, none => .error (.fault .missingProtocol)
  | none, some protocol =>
    .ok {
      protocol
      task := g.task
      address := g.address
      configPath := g.configPath
      style := if g.json then .json else .text
      verbosity := g.verbosity }

end Given

/-! ## Reading -/

/-- How far a command line has been read. -/
structure Reading where
  /-- What was given. -/
  given : Given := {}
  /-- The argument that was seen last and is not yet taken, and its value if there already is
  one. -/
  pending : Option (Argument × Option String) := none
  /-- The positional arguments that have not been seen. -/
  expected : List Argument := [.protocol, .port]
  deriving DecidableEq, Repr

namespace Reading

/-- Takes the pending argument. -/
def settle (r : Reading) : Except Detour Reading :=
  match r.pending with
  | none => .ok r
  | some (a, value) => do return { r with given := ← r.given.take a value, pending := none }

/-- Takes an argument at once. -/
def take (r : Reading) (a : Argument) (value : Option String) : Except Detour Reading := do
  let r ← r.settle
  return { r with given := ← r.given.take a value }

/-- Leaves an argument pending. -/
def await (r : Reading) (a : Argument) (value : Option String) : Except Detour Reading := do
  return { ← r.settle with pending := some (a, value) }

/-- Reads a name. -/
def readName (r : Reading) (name : String) (value : Option String) : Except Detour Reading :=
  match Argument.ofName? name with
  | none => .error (.fault (.unexpectedArgument ("--" ++ name)))
  | some a =>
    match a.form, value with
    | .flag, some value => .error (.fault (.unexpectedValue value a))
    | .flag, none => r.take a none
    | _, some value => r.take a (some value)
    | _, none => r.await a none

/-- Reads letters one after the other. -/
def readLetters : List Char → Reading → Except Detour Reading
  | [], r => .ok r
  | c :: cs, r =>
    match Argument.ofLetter? c with
    | none => .error (.fault (.unexpectedArgument (String.ofList ['-', c])))
    | some a => do readLetters cs (← r.take a none)

/-- Reads a text as the next positional argument. -/
def readPositional (r : Reading) (text : String) : Except Detour Reading :=
  match r.expected with
  | [] => .error (.fault (.unexpectedArgument text))
  | a :: rest => do return { ← r.await a (some text) with expected := rest }

/-- Reads a text without a name, which is the value of an option that waits for one. -/
def readPlain (r : Reading) (text : String) : Except Detour Reading :=
  match r.pending with
  | some (a, none) => .ok { r with pending := some (a, some text) }
  | _ => r.readPositional text

/-- Reads the texts after an escape. -/
def readEscaped : List String → Reading → Except Detour Reading
  | [], r => .ok r
  | text :: rest, r => do readEscaped rest (← r.readPositional text)

/-- Reads the texts of a command line. -/
def readAll : List String → Reading → Except Detour Reading
  | [], r => .ok r
  | text :: rest, r =>
    match Piece.ofText text with
    | .escape => readEscaped rest r
    | .named name value => do readAll rest (← r.readName name value)
    | .letters letters => do readAll rest (← readLetters letters r)
    | .plain text => do readAll rest (← r.readPlain text)

end Reading

/-- Reads a command line. -/
def Command.read (texts : List String) : Except Detour Command := do
  let r ← Reading.readAll texts {}
  let r ← r.settle
  r.given.command

end PortWarden.CommandLine
