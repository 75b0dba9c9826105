import PortWarden.Service

/-!
# Sessions

A service in use: callers ask it questions one after the other and keep what they are given under
names, while other programs on the host start and stop listening. A session owns every socket that
outlives a question, through a keeper or through a listener taken out of one.
-/

namespace PortWarden

/-- What can happen in a session. -/
inductive Request where
  /-- Asks whether a port is free. -/
  | available (port : UInt16) (protocol : Protocol) (address : Option Address)
  /-- Asks whether a port is free on the configured address. -/
  | availableByDefault (port : UInt16) (protocol : Protocol)
  /-- Asks for a random free port. -/
  | random (protocol : Protocol) (address : Option Address) (membership : Bool)
  /-- Asks for a random port that is free on the configured address. -/
  | randomByDefault (protocol : Protocol)
  /-- Asks for a random free port of a range. -/
  | randomInRange (lower upper : UInt16) (protocol : Protocol)
  /-- Claims a port under a name. -/
  | keep (name : String) (port : UInt16) (protocol : Protocol) (address : Option Address)
  /-- Claims a random port under a name. -/
  | keepRandom (name : String) (protocol : Protocol) (address : Option Address) (membership : Bool)
  /-- Gives the port of a keeper back. -/
  | release (name : String)
  /-- Looks at a keeper. -/
  | inspect (name : String)
  /-- Drops the keeper and the listener of a name. -/
  | drop (name : String)
  /-- Takes the listener out of a keeper. -/
  | takeListener (name : String)
  /-- Another program starts to listen. -/
  | foreignListens (target : Endpoint)
  /-- Another program stops listening. -/
  | foreignStops (target : Endpoint)
  deriving DecidableEq, Repr

/-- What a session answers. -/
inductive Reply where
  | available (answer : Bool)
  | port (port : Option UInt16)
  | keeper (keeper : Option Keeper)
  | unknownKeeper
  | dropped (any : Bool)
  | listener (address : Option Endpoint)
  | done
  | stopped (stop : Stop)
  deriving DecidableEq, Repr

/-- A service in use. -/
structure Session where
  /-- The service. -/
  service : Service
  /-- The keepers by their names. -/
  keepers : List (String × Keeper) := []
  /-- The sockets taken out of keepers, by the keepers' names. -/
  listeners : List (String × SocketId) := []
  /-- Everything else. -/
  world : World Host

namespace Session

/-- The entries of a table without those of a name. -/
def without {α : Type} (name : String) (table : List (String × α)) : List (String × α) :=
  table.filter (·.1 != name)

/-- Changes the host and the events reported. -/
def withLogged (s : Session) (change : Logged Host → Logged Host) : Session :=
  { s with world := { s.world with toLogged := change s.world.toLogged } }

/-- Changes the host. -/
def withHost (s : Session) (change : Host → Host) : Session :=
  s.withLogged fun l => { l with state := change l.state }

/-- Drops the keeper of a name, if there is one. -/
def dropKeeper (s : Session) (name : String) : Session :=
  match s.keepers.lookup name with
  | none => s
  | some keeper => { s with keepers := without name s.keepers }.withLogged keeper.drop

/-- Closes the listener of a name, if there is one. -/
def dropListener (s : Session) (name : String) : Session :=
  match s.listeners.lookup name with
  | none => s
  | some id => { s with listeners := without name s.listeners }.withHost (·.close id)

/-- Stores a new keeper; an older one of the name is dropped. -/
def storeKeeper (s : Session) (name : String) (keeper : Keeper) : Session :=
  let s := s.dropKeeper name
  { s with keepers := (name, keeper) :: s.keepers }

/-- Stores a new listener; an older one of the name is closed. -/
def storeListener (s : Session) (name : String) (id : SocketId) : Session :=
  let s := s.dropListener name
  { s with listeners := (name, id) :: s.listeners }

/-- Asks the service a question. -/
def ask {α : Type} (s : Session) (question : Allocating Host α)
    (reply : α → Session → Reply × Session) : Reply × Session :=
  match question s.world with
  | (.ok a, world) => reply a { s with world }
  | (.error stop, world) => (.stopped stop, { s with world })

/-- Answers a question that leaves nothing behind. -/
def answer {α : Type} (f : α → Reply) (a : α) (s : Session) : Reply × Session := (f a, s)

/-- Stores the keeper that a question gave, if it gave one. -/
def storeKept (name : String) : Option Keeper → Session → Reply × Session
  | none, s => (.keeper none, s)
  | some keeper, s => (.keeper (some keeper), s.storeKeeper name keeper)

/-- What happens in a session, with `fuel` for the searches in it. -/
def step (fuel : Nat) (request : Request) (s : Session) : Reply × Session :=
  match request with
  | .available port protocol address =>
    s.ask (s.service.isAvailable port protocol address) (answer .available)
  | .availableByDefault port protocol =>
    s.ask (s.service.isAvailableByDefault port protocol) (answer .available)
  | .random protocol address membership =>
    s.ask (s.service.randomPort fuel protocol address membership) (answer (.port ∘ some))
  | .randomByDefault protocol =>
    s.ask (s.service.randomPortByDefault fuel protocol) (answer (.port ∘ some))
  | .randomInRange lower upper protocol =>
    s.ask (s.service.randomPortInRange fuel lower upper protocol) (answer .port)
  | .keep name port protocol address =>
    s.ask (s.service.keep port protocol address) (storeKept name)
  | .keepRandom name protocol address membership =>
    s.ask (s.service.randomKeeper fuel protocol address membership) (storeKept name ∘ some)
  | .release name =>
    match s.keepers.lookup name with
    | none => (.unknownKeeper, s)
    | some keeper =>
      let (keeper, logged) := keeper.release s.world.toLogged
      (.keeper (some keeper),
        { s with
          keepers := (name, keeper) :: without name s.keepers
          world := { s.world with toLogged := logged } })
  | .inspect name =>
    match s.keepers.lookup name with
    | none => (.unknownKeeper, s)
    | some keeper => (.keeper (some keeper), s)
  | .drop name =>
    (.dropped ((s.keepers.lookup name).isSome || (s.listeners.lookup name).isSome),
      (s.dropKeeper name).dropListener name)
  | .takeListener name =>
    match s.keepers.lookup name with
    | none => (.unknownKeeper, s)
    | some keeper =>
      let s := { s with keepers := without name s.keepers }
      match keeper.socket with
      | none => (.listener none, s)
      | some id => (.listener (s.world.state.bound? id), s.storeListener name id)
  | .foreignListens target =>
    (.done, s.withHost fun h => { h with foreign := h.foreign ++ [target] })
  | .foreignStops target =>
    (.done, s.withHost fun h => { h with foreign := h.foreign.filter (· != target) })

/-- The names of a table in order. -/
def names {α : Type} (table : List (String × α)) : List String :=
  (table.map (·.1)).mergeSort (· ≤ ·)

/-- The end of a session: the listeners are closed and then the keepers dropped, each in the order
of the names. -/
def finish (s : Session) : Session :=
  let s := (names s.listeners).foldl dropListener s
  (names s.keepers).foldl dropKeeper s

end Session

end PortWarden
