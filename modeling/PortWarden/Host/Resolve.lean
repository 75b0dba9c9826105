import PortWarden.Event
import PortWarden.Failure
import PortWarden.Host.SystemCall
import PortWarden.Text.Blank

/-!
# Resolving names

An address may be given in its written form or by a name. The written form is tried first, so that
it never reaches the resolver.
-/

namespace PortWarden

open PortWarden.Text

/-- The address that a resolver's answer gives: the first of a family that is used here. -/
def Lookup.address (name : String) : Lookup → Except Failure Address
  | .error fault => .error (.resolution (.lookup name fault))
  | .ok found =>
    match found.filterMap id with
    | [] => .error (.resolution (.noAddress name))
    | address :: _ => .ok address

/-- The address of a text with blanks around it: its own if it is the written form of one, and the
resolver's for the name that it is otherwise. -/
def Host.resolve (text : String) (h : Host) : Except Failure Address × Host :=
  let name := trim text.toList
  match Address.read? name with
  | some address => (.ok address, h)
  | none =>
    let name := String.ofList name
    if name.toList.contains '\x00' then (.error (.resolution (.nulCharacter name)), h)
    else
      let (answer, h) := h.lookup name
      (answer.address name, h)

end PortWarden
