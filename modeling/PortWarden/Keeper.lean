import PortWarden.Event
import PortWarden.Host.SystemCall

/-!
# Keepers

A keeper holds the socket that listens on a claimed port, so that nobody takes the port before it is
used. Its socket is closed once, when the keeper is released or dropped, unless it was taken out
before.
-/

namespace PortWarden

/-- A claim on a port. A port that was only assumed to be free is claimed without a socket. -/
structure Keeper where
  /-- The port claimed, which a released keeper still knows. -/
  port : UInt16
  /-- The socket that listens on it. -/
  socket : Option SocketId
  deriving DecidableEq, Repr

namespace Keeper

/-- Whether a keeper has its socket. -/
def isHeld (k : Keeper) : Bool := k.socket.isSome

/-- Gives the port back. A keeper without a socket has nothing to give. -/
def release (k : Keeper) (w : Logged Host) : Keeper × Logged Host :=
  match k.socket with
  | none => (k, w)
  | some id =>
    let w := w.note (.portReleased k.port)
    ({ k with socket := none }, { w with state := w.state.close id })

/-- Drops a keeper, which gives the port back. -/
def drop (k : Keeper) (w : Logged Host) : Logged Host := (k.release w).2

/-- The written form of a keeper. -/
def text (k : Keeper) : String :=
  "Keeper \x7b port: " ++ toString k.port ++ ", held: " ++ toString k.isHeld ++ " \x7d"

end Keeper

end PortWarden
