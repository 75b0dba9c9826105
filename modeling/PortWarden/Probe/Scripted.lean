import PortWarden.Probe.Prober

/-!
# Scripted probes

A probe that answers from a list of free ports and notes what it is asked, for trying out searches.
A port that is found free and to be kept is claimed by a prober, so that what comes out is a keeper
like any other.
-/

namespace PortWarden

/-- A question that a scripted probe was asked. -/
structure ScriptedQuestion where
  /-- Whether the port was to be kept. -/
  keeping : Bool
  /-- The port. -/
  port : UInt16
  /-- The protocol. -/
  protocol : Protocol
  /-- The address, if one was given. -/
  address : Option Address
  deriving DecidableEq, Repr

/-- The written form of a question. -/
def ScriptedQuestion.text (q : ScriptedQuestion) : String :=
  (if q.keeping then "keep " else "probe ") ++ toString q.port ++ " " ++ q.protocol.name ++ " " ++
    (match q.address with
    | none => "*"
    | some address => address.text)

/-- The state of a scripted probe. -/
structure Script where
  /-- The ranges of free ports. -/
  free : List PortRange
  /-- The number of the question that fails, if one does. -/
  failAt : Option Nat
  /-- The questions asked so far, the latest first. -/
  questions : List ScriptedQuestion := []
  /-- How many questions were asked so far. -/
  asked : Nat := 0
  /-- The host on which ports are kept. -/
  host : Host

namespace Script

/-- Whether a port is on the list of free ones. -/
def isFree (s : Script) (port : UInt16) : Bool := s.free.any (·.contains port)

/-- Forgets the questions asked so far. -/
def restart (s : Script) : Script := { s with questions := [], asked := 0 }

/-- Notes a question, and fails if it is the one that is to fail. -/
def ask (q : ScriptedQuestion) : Probing Script Unit := fun w =>
  let s := { w.state with questions := q :: w.state.questions, asked := w.state.asked + 1 }
  if s.failAt = some s.asked then (.error (.interfaceListing "scripted"), { w with state := s })
  else (.ok (), { w with state := s })

/-- The prober that claims free ports, on no interface but the wildcard. -/
def prober : Prober := { interfaces := .fixed [] }

/-- A computation on the host as one on the script. -/
def onHost {α : Type} (question : Probing Host α) : Probing Script α := fun w =>
  let (answer, l) := question ⟨w.state.host, w.log⟩
  (answer, ⟨{ w.state with host := l.state }, l.log⟩)

/-- The scripted probe. -/
def probe : Probe Script where
  isAvailable port protocol address := do
    ask ⟨false, port, protocol, address⟩
    return (← get).state.isFree port
  keep port protocol address := do
    ask ⟨true, port, protocol, address⟩
    if (← get).state.isFree port then onHost (prober.keep port protocol address) else return none

/-- Drops a keeper that came out of a scripted probe. -/
def dropKeeper (keeper : Keeper) (w : Logged Script) : Logged Script :=
  let l := keeper.drop ⟨w.state.host, w.log⟩
  ⟨{ w.state with host := l.state }, l.log⟩

end Script

end PortWarden
