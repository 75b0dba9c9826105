/-!
# Error numbers

The errors with which a system call fails, with their numbers, symbols and the two wordings in which
they are reported. `Errno.isUnreachable` picks out those that tell of a network that cannot be
reached at all.
-/

namespace PortWarden

/-- Why a system call failed. -/
inductive Errno where
  | notPermitted
  | noSuchFile
  | interrupted
  | inputOutput
  | tryAgain
  | outOfMemory
  | accessDenied
  | noSuchDevice
  | notADirectory
  | isADirectory
  | invalidArgument
  | tooManyFilesInSystem
  | tooManyFiles
  | notSupported
  | familyNotSupported
  | addressInUse
  | addressNotAvailable
  | networkDown
  | networkUnreachable
  | connectionReset
  | noBufferSpace
  | timedOut
  | connectionRefused
  | hostDown
  | hostUnreachable
  deriving DecidableEq, Repr

namespace Errno

/-- Every error number. -/
def all : List Errno :=
  [notPermitted, noSuchFile, interrupted, inputOutput, tryAgain, outOfMemory, accessDenied,
    noSuchDevice, notADirectory, isADirectory, invalidArgument, tooManyFilesInSystem, tooManyFiles,
    notSupported, familyNotSupported, addressInUse, addressNotAvailable, networkDown,
    networkUnreachable, connectionReset, noBufferSpace, timedOut, connectionRefused, hostDown,
    hostUnreachable]

/-- The number of an error on Linux. -/
def number : Errno → Nat
  | notPermitted => 1
  | noSuchFile => 2
  | interrupted => 4
  | inputOutput => 5
  | tryAgain => 11
  | outOfMemory => 12
  | accessDenied => 13
  | noSuchDevice => 19
  | notADirectory => 20
  | isADirectory => 21
  | invalidArgument => 22
  | tooManyFilesInSystem => 23
  | tooManyFiles => 24
  | notSupported => 95
  | familyNotSupported => 97
  | addressInUse => 98
  | addressNotAvailable => 99
  | networkDown => 100
  | networkUnreachable => 101
  | connectionReset => 104
  | noBufferSpace => 105
  | timedOut => 110
  | connectionRefused => 111
  | hostDown => 112
  | hostUnreachable => 113

/-- The symbol of an error. -/
def symbol : Errno → String
  | notPermitted => "EPERM"
  | noSuchFile => "ENOENT"
  | interrupted => "EINTR"
  | inputOutput => "EIO"
  | tryAgain => "EAGAIN"
  | outOfMemory => "ENOMEM"
  | accessDenied => "EACCES"
  | noSuchDevice => "ENODEV"
  | notADirectory => "ENOTDIR"
  | isADirectory => "EISDIR"
  | invalidArgument => "EINVAL"
  | tooManyFilesInSystem => "ENFILE"
  | tooManyFiles => "EMFILE"
  | notSupported => "EOPNOTSUPP"
  | familyNotSupported => "EAFNOSUPPORT"
  | addressInUse => "EADDRINUSE"
  | addressNotAvailable => "EADDRNOTAVAIL"
  | networkDown => "ENETDOWN"
  | networkUnreachable => "ENETUNREACH"
  | connectionReset => "ECONNRESET"
  | noBufferSpace => "ENOBUFS"
  | timedOut => "ETIMEDOUT"
  | connectionRefused => "ECONNREFUSED"
  | hostDown => "EHOSTDOWN"
  | hostUnreachable => "EHOSTUNREACH"

/-- The error of a symbol. -/
def ofSymbol? (symbol : String) : Option Errno := all.find? (·.symbol == symbol)

/-- The system's own description of an error. -/
def description : Errno → String
  | notPermitted => "Operation not permitted"
  | noSuchFile => "No such file or directory"
  | interrupted => "Interrupted system call"
  | inputOutput => "Input/output error"
  | tryAgain => "Resource temporarily unavailable"
  | outOfMemory => "Cannot allocate memory"
  | accessDenied => "Permission denied"
  | noSuchDevice => "No such device"
  | notADirectory => "Not a directory"
  | isADirectory => "Is a directory"
  | invalidArgument => "Invalid argument"
  | tooManyFilesInSystem => "Too many open files in system"
  | tooManyFiles => "Too many open files"
  | notSupported => "Operation not supported"
  | familyNotSupported => "Address family not supported by protocol"
  | addressInUse => "Address already in use"
  | addressNotAvailable => "Cannot assign requested address"
  | networkDown => "Network is down"
  | networkUnreachable => "Network is unreachable"
  | connectionReset => "Connection reset by peer"
  | noBufferSpace => "No buffer space available"
  | timedOut => "Connection timed out"
  | connectionRefused => "Connection refused"
  | hostDown => "Host is down"
  | hostUnreachable => "No route to host"

/-- The wording of a failed call: the description and the number. -/
def message (e : Errno) : String := e.description ++ " (os error " ++ toString e.number ++ ")"

/-- The wording of a failed listing of interfaces: the symbol and a short description, which differs
from the system's for a few errors. -/
def listingMessage (e : Errno) : String :=
  let short :=
    match e with
    | inputOutput => "I/O error"
    | tryAgain => "Try again"
    | outOfMemory => "Out of memory"
    | tooManyFilesInSystem => "File table overflow"
    | notSupported => "Operation not supported on transport endpoint"
    | other => other.description
  e.symbol ++ ": " ++ short

/-- The errors that tell of a host without a usable network, rather than of a port in use. -/
def isUnreachable (e : Errno) : Bool := e == networkUnreachable || e == hostUnreachable

/-- The errors with which a receive ends when nothing arrives in time. -/
def isTimeout (e : Errno) : Bool := e == tryAgain || e == timedOut

end Errno

end PortWarden
