import PortWarden.Failure
import PortWarden.Text.Number

/-!
# Arguments

What a command line can give, and what can be wrong with one. Some arguments contradict each other;
`Argument.excludes` lists the pairs, and the first argument given that takes part in one is the one
reported.
-/

namespace PortWarden.CommandLine

open PortWarden.Text

/-- Something that a command line can give. -/
inductive Argument where
  | protocol
  | port
  | address
  | membership
  | range
  | keep
  | config
  | json
  | verbose
  | help
  | version
  deriving DecidableEq, Repr

namespace Argument

/-- How an argument is given. -/
inductive Form where
  /-- By its place among the arguments without a name. -/
  | positional
  /-- By its name with a value. -/
  | option
  /-- By its name alone. -/
  | flag
  deriving DecidableEq, Repr

/-- How an argument is given. -/
def form : Argument → Form
  | protocol | port => .positional
  | address | range | keep | config => .option
  | membership | json | verbose | help | version => .flag

/-- The arguments that are given by a name of their own. -/
def named : List Argument :=
  [address, membership, range, keep, config, json, verbose, help, version]

/-- The name of an argument, which follows two dashes. -/
def name : Argument → String
  | protocol => "protocol"
  | port => "port"
  | address => "addr"
  | membership => "membership"
  | range => "range"
  | keep => "keep"
  | config => "config"
  | json => "json"
  | verbose => "verbose"
  | help => "help"
  | version => "version"

/-- The argument of a name. -/
def ofName? (name : String) : Option Argument := named.find? (·.name == name)

/-- The argument of a letter, which follows one dash. -/
def ofLetter? : Char → Option Argument
  | 'v' => some verbose
  | 'h' => some help
  | 'V' => some version
  | _ => none

/-- How an argument is shown in reports. -/
def label : Argument → String
  | protocol => "<PROTOCOL>"
  | port => "[PORT]"
  | address => "--addr <ADDR>"
  | range => "--range <LO-HI>"
  | keep => "--keep <SECS>"
  | config => "--config <CONFIG>"
  | verbose => "--verbose..."
  | flag => "--" ++ flag.name

/-- Whether an argument may be given more than once. -/
def isRepeatable (a : Argument) : Bool := a == verbose

/-- Whether the first argument excludes the second. -/
def excludes : Argument → Argument → Bool
  | membership, port | membership, range | range, port | keep, range => true
  | _, _ => false

/-- Whether two arguments cannot be given together. -/
def conflicts (a b : Argument) : Bool := a.excludes b || b.excludes a

end Argument

/-- What is wrong with the value of an argument. -/
inductive ValueFault where
  /-- It is not what the library takes. -/
  | argument (fault : ArgumentFault)
  /-- It is not a number. -/
  | number (fault : NumberFault)
  /-- It is a number, but no port. -/
  | noPort (n : Int)
  deriving DecidableEq, Repr

/-- The words in which a fault of a value is reported. -/
def ValueFault.message : ValueFault → String
  | argument fault => fault.report
  | number fault => fault.message
  | noPort n => toString n ++ " is not in 0..=65535"

/-- What is wrong with a command line. -/
inductive UsageFault where
  /-- An argument is unknown, or one too many. -/
  | unexpectedArgument (text : String)
  /-- A flag has a value. -/
  | unexpectedValue (value : String) (argument : Argument)
  /-- An option has no value, or one that cannot be empty is. -/
  | missingValue (argument : Argument)
  /-- A value is no good. -/
  | invalidValue (value : String) (argument : Argument) (fault : ValueFault)
  /-- An argument is given twice. -/
  | repeated (argument : Argument)
  /-- An argument cannot be given together with others that are. -/
  | conflict (argument : Argument) (others : List Argument)
  /-- The protocol is not given. -/
  | missingProtocol
  deriving DecidableEq, Repr

/-- The words in which a fault of a command line is reported. -/
def UsageFault.message : UsageFault → String
  | unexpectedArgument text => "unexpected argument '" ++ text ++ "' found"
  | unexpectedValue value argument =>
    "unexpected value '" ++ value ++ "' for '" ++ argument.label ++ "' found; no more were expected"
  | missingValue argument =>
    "a value is required for '" ++ argument.label ++ "' but none was supplied"
  | invalidValue value argument fault =>
    "invalid value '" ++ value ++ "' for '" ++ argument.label ++ "': " ++ fault.message
  | repeated argument => "the argument '" ++ argument.label ++ "' cannot be used multiple times"
  | conflict argument [other] =>
    "the argument '" ++ argument.label ++ "' cannot be used with '" ++ other.label ++ "'"
  | conflict argument others =>
    "the argument '" ++ argument.label ++ "' cannot be used with:" ++
      String.join (others.map fun other => "\n  " ++ other.label)
  | missingProtocol =>
    "the following required arguments were not provided:\n  " ++ Argument.protocol.label

end PortWarden.CommandLine
