import PortWarden.Text.Blank

/-!
# Protocols

The two ways in which a port can be in use, and the names by which callers ask for them.
-/

namespace PortWarden

/-- How a port is checked. -/
inductive Protocol where
  /-- A stream port is free if a listener can be bound to it. -/
  | stream
  /-- A multicast port is free if nobody answers on it in the group. -/
  | multicast
  deriving DecidableEq, Repr

namespace Protocol

/-- The name under which a protocol is reported. -/
def name : Protocol → String
  | stream => "socket"
  | multicast => "multicast"

/-- The protocol of a name, in any mixture of ASCII capitals and small letters. -/
def ofName? (text : String) : Option Protocol :=
  match Text.lowerCase text with
  | "socket" | "tcp" | "stream" => some stream
  | "jgroups" | "javagroups" | "multicast" | "udp" => some multicast
  | _ => none

end Protocol

end PortWarden
