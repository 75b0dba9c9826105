import PortWarden.Host.Basic

/-!
# The written form of system calls

One line for each call: the socket, what is asked for, and the error if the call failed.
-/

namespace PortWarden

open PortWarden.Text

/-- The name of a socket. -/
def SocketId.name (id : SocketId) : String := "s" ++ toString (id : Nat)

/-- A byte as two hexadecimal digits. -/
def hexByte (b : UInt8) : List Char :=
  if b < 16 then '0' :: hexadecimal b.toNat else hexadecimal b.toNat

/-- The written form of what a call asks for. -/
def Action.text : Action → String
  | create family kind => "socket " ++ family.name ++ " " ++ kind.name
  | reuseAddress => "reuseaddr 1"
  | timeout milliseconds => "timeout " ++ toString milliseconds
  | bind target => "bind " ++ target.text
  | listen backlog => "listen " ++ toString backlog
  | multicastInterface interface => "mcast_if " ++ interface.text
  | joinOnInterface group interface => "join " ++ group.text ++ " on " ++ interface.text
  | joinOnIndex group index => "join " ++ (Address.v6 group).text ++ " on " ++ toString index
  | send payload target =>
    "send " ++ String.ofList (payload.flatMap hexByte) ++ " to " ++ target.text
  | receive none => "recv"
  | receive (some sender) => "recv " ++ sender.text
  | close => "close"
  | listInterfaces _ => "getifaddrs"
  | resolve name => "resolve " ++ name
  | sleep seconds => "sleep " ++ toString seconds

/-- The written form of a call. -/
def Call.text (call : Call) : String :=
  match call.failure, call.action, call.socket with
  | none, .create .., some id => id.name ++ " = " ++ call.action.text
  | none, .listInterfaces count, _ => call.action.text ++ " = " ++ toString count
  | none, _, some id => id.name ++ " " ++ call.action.text
  | none, _, none => call.action.text
  | some errno, .create .., _ => call.action.text ++ " = " ++ errno.symbol
  | some errno, _, some id => id.name ++ " " ++ call.action.text ++ " = " ++ errno.symbol
  | some errno, _, none => call.action.text ++ " = " ++ errno.symbol

end PortWarden
