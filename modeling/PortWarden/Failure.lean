import PortWarden.Host.Basic
import PortWarden.Port.Range

/-!
# Failures

The ways in which a question about ports fails outright. A port in use is no failure but an answer.
Failures are kept as causes; `Failure.message` gives the words in which they are reported.
-/

namespace PortWarden

/-- What is wrong with the arguments of a question. -/
inductive ArgumentFault where
  /-- No protocol has this name. -/
  | unknownProtocol (name : String)
  /-- The range is unusable. -/
  | range (fault : RangeFault)
  /-- A multicast port was asked about in something that is no group. -/
  | notMulticast (group : Address)
  /-- A multicast port was to be kept, which cannot be done. -/
  | multicastKeep
  deriving DecidableEq, Repr

/-- The words in which a fault of the arguments is reported. -/
def ArgumentFault.message : ArgumentFault → String
  | unknownProtocol name => "Unknown protocol: " ++ name
  | range fault => fault.message
  | notMulticast group => group.text ++ " is not a multicast address"
  | multicastKeep => "multicast ports cannot be kept"

/-- The words in which a fault of the arguments is reported as a failure. -/
def ArgumentFault.report (fault : ArgumentFault) : String := "Invalid argument: " ++ fault.message

/-- What is wrong with a configuration. -/
inductive ConfigFault where
  /-- The general range is unusable. -/
  | range (fault : RangeFault)
  /-- The membership range is unusable. -/
  | membershipRange (fault : RangeFault)
  /-- The configured group is no multicast address. -/
  | notMulticast (address : Address)
  /-- There is no time to wait for an answer. -/
  | zeroTimeout
  /-- No attempt is allowed. -/
  | zeroAttemptLimit
  /-- The value of a variable cannot be read. -/
  | invalidValue (key value : String)
  /-- The value of a variable is neither true nor false. -/
  | notBoolean (key value : String)
  deriving DecidableEq, Repr

/-- The words in which a fault of the configuration is reported. -/
def ConfigFault.message : ConfigFault → String
  | range fault => "range: " ++ (ArgumentFault.range fault).report
  | membershipRange fault => "membershipRange: " ++ (ArgumentFault.range fault).report
  | notMulticast address => "mcastAddress " ++ address.text ++ " is not a multicast address"
  | zeroTimeout => "timeoutMs must be at least 1"
  | zeroAttemptLimit => "randomAttemptLimit must be at least 1"
  | invalidValue key value => key ++ ": invalid value '" ++ value ++ "'"
  | notBoolean key value => key ++ ": expected a boolean, got '" ++ value ++ "'"

/-- Why a name gives no address. -/
inductive ResolutionFault where
  /-- The name holds a NUL character, with which the resolver is not asked. -/
  | nulCharacter (name : String)
  /-- The resolver fails. -/
  | lookup (name : String) (fault : LookupFault)
  /-- The resolver knows the name, but no address of a family that is used here. -/
  | noAddress (name : String)
  deriving DecidableEq, Repr

/-- The words in which a fault of name resolution is reported. -/
def ResolutionFault.message : ResolutionFault → String
  | nulCharacter name => name ++ ": file name contained an unexpected NUL byte"
  | lookup name fault => name ++ ": " ++ fault.message
  | noAddress name => name

/-- Why a file cannot be read as text. -/
inductive FileFault where
  /-- Reading fails. -/
  | system (errno : Errno)
  /-- The bytes are not UTF-8. -/
  | notText
  deriving DecidableEq, Repr

/-- The words in which a fault of reading is reported. -/
def FileFault.message : FileFault → String
  | system errno => errno.message
  | notText => "stream did not contain valid UTF-8"

/-- Why a question about ports fails outright. -/
inductive Failure where
  /-- The arguments are no good. -/
  | invalidArgument (fault : ArgumentFault)
  /-- The host cannot reach the network at all. -/
  | networkUnreachable (target : Endpoint) (cause : Errno)
  /-- The addresses of the host's interfaces cannot be listed. -/
  | interfaceListing (reason : String)
  /-- The allowed number of attempts found no free port. -/
  | exhausted (attempts : Nat)
  /-- The configuration is no good. -/
  | config (fault : ConfigFault)
  /-- A name gives no address. -/
  | resolution (fault : ResolutionFault)
  /-- The configuration file cannot be read. -/
  | file (fault : FileFault)
  /-- The configuration file is not the document it should be. -/
  | document
  deriving DecidableEq, Repr

namespace Failure

/-- The words in which a failure is reported. -/
def message : Failure → String
  | invalidArgument fault => fault.report
  | networkUnreachable target _ => "Network is unreachable: " ++ target.text
  | interfaceListing reason => "Interface enumeration failed: " ++ reason
  | exhausted attempts => "No available port after " ++ toString attempts ++ " attempts"
  | config fault => "Configuration error: " ++ fault.message
  | resolution fault => "Unable to resolve address: " ++ fault.message
  | file fault => "IO error: " ++ fault.message
  | document => "YAML error: malformed configuration"

/-- The words of the error beneath a failure, where there is one. -/
def source? : Failure → Option String
  | networkUnreachable _ cause => some cause.message
  | file fault => some fault.message
  | _ => none

/-- Whether a failure tells of a misconfigured host rather than of a bad question. -/
def isHostFailure : Failure → Bool
  | networkUnreachable .. => true
  | interfaceListing _ => true
  | _ => false

end Failure

end PortWarden
