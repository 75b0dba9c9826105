import PortWarden.Proofs.Ownership

/-!
# Runs of a session

A session runs from a host on which the program has no socket yet, asked one question after the
other. Whoever asks brings a service, so a run may mix callers with different options, interfaces,
ranges and generators. Every step of a run keeps the session sound.
-/

namespace PortWarden

/-- The address `::1` of the host itself. -/
def IPv6.loopback : IPv6 := ⟨#v[0, 0, 0, 0, 0, 0, 0, 1]⟩

/-- What may happen on a host, where other programs start to listen only where they may. -/
def Request.Allowed (may : Host → Endpoint → Prop) (h : Host) : Request → Prop
  | .foreignListens target => may h target
  | _ => True

/-- Other programs listen wherever they want. -/
def anywhere (_ : Host) (_ : Endpoint) : Prop := True

/-- Other programs are held to the same rule, and listen where they do not contend. -/
def whereFree (h : Host) (target : Endpoint) : Prop := h.isContended target = false

/-- A released keeper knows its port and has no socket. -/
theorem Keeper.release_fst (k : Keeper) (w : Logged Host) :
    (k.release w).1 = { k with socket := none } := by
  obtain ⟨port, _ | id⟩ := k <;> rfl

/-- The socket left behind a claim is the one of the keeper. -/
theorem ids_keptAt (target : Endpoint) (keeper : Keeper) :
    (keptAt target (some keeper)).map Socket.id = keeper.socket.toList := by
  obtain ⟨port, _ | id⟩ := keeper <;> rfl

/-- The socket left behind a claim listens on what was claimed. -/
theorem listener_of_mem_keptAt {target : Endpoint} {kept : Option Keeper} {socket : Socket}
    (hsocket : socket ∈ keptAt target kept) : socket = Socket.listener socket.id target := by
  rcases kept with _ | ⟨port, _ | id⟩
  · cases hsocket
  · cases hsocket
  · rw [List.mem_singleton.mp hsocket]
    rfl

namespace Service

variable (service : Service)

/-- Checking a port leaves nothing open. -/
theorem isAvailable_leavesOpen (port : UInt16) (protocol : Protocol) (address : Option Address) :
    LeavesOpen World.host (fun _ => []) (service.isAvailable port protocol address) :=
  (service.prober.isAvailable_leavesOpen port protocol address).onWorld

/-- Claiming a port leaves what its keeper holds. -/
theorem keep_leavesOpen (port : UInt16) (protocol : Protocol) (address : Option Address) :
    LeavesOpen World.host (keptAt ((address.getD .wildcard).endpoint port))
      (service.keep port protocol address) :=
  (service.prober.keep_leavesOpen port protocol address).onWorld

/-- A service gives what its prober gives. -/
theorem keep_ok {port : UInt16} {protocol : Protocol} {address : Option Address}
    {w w' : World Host} {kept : Option Keeper}
    (hrun : service.keep port protocol address w = (.ok kept, w')) :
    ∃ l, service.prober.keep port protocol address w.toLogged = (.ok kept, l) := by
  simp only [keep, Probing.onWorld] at hrun
  rcases hask : service.prober.keep port protocol address w.toLogged with ⟨failure | a, l⟩ <;>
    rw [hask] at hrun <;> cases hrun
  exact ⟨l, rfl⟩

/-- The keeper that is given for a port is for the address asked for or else for the wildcard. -/
theorem keep_answers (port : UInt16) (protocol : Protocol) (address : Option Address) :
    Answers (service.keep port protocol address) fun kept =>
      ∀ keeper ∈ kept, service.prober.Gives ((address.getD .wildcard).endpoint port) keeper := by
  intro w kept w' hrun
  obtain ⟨l, hask⟩ := service.keep_ok hrun
  exact service.prober.keep_answers port protocol address _ _ _ hask

end Service

namespace Session

namespace Sound

variable {may : Host → Endpoint → Prop} {origin : Host} {s : Session}

/-- What other programs listen on is nothing to the sockets. -/
theorem with_foreign (hs : s.Sound may origin []) {foreign : List Endpoint}
    (hgoes : Host.Goes may origin { s.world.host with foreign }) :
    (s.withHost fun h => { h with foreign }).Sound may origin [] where
  goes := hgoes
  balanced := ⟨hs.balanced.accounts, hs.balanced.distinct, hs.balanced.bounded⟩
  owned := hs.owned
  keeperNames := hs.keeperNames
  listenerNames := hs.listenerNames
  listening := hs.listening
  claims := hs.claims

/-- A question that leaves nothing open. -/
theorem leaves_nothing {world : World Host} (hs : s.Sound may origin [])
    (hleaves : s.world.host.Leaves world.host []) : ({ s with world }).Sound may origin [] :=
  hs.leaves hleaves (by simp)

/-- A question that has an answer and leaves nothing open. -/
theorem ask_answer {α : Type} {question : Allocating Host α} (hs : s.Sound may origin [])
    (hquestion : LeavesOpen World.host (fun _ => []) question) (f : α → Reply) :
    (s.ask question (answer f)).2.Sound may origin [] := by
  have hleaves := hquestion.leaves_nothing hs.balanced
  simp only [ask]
  rcases hrun : question s.world with ⟨stop | a, world⟩ <;> rw [hrun] at hleaves <;>
    exact hs.leaves_nothing hleaves

/-- The keeper that a question gave has its socket pending, on which it listens. -/
theorem kept_pending {world : World Host} {target : Endpoint} {keeper : Keeper}
    (hs : s.Sound may origin [])
    (hleaves : s.world.host.Leaves world.host (keptAt target (some keeper)))
    (hport : keeper.port = target.port) :
    ({ s with world }).Sound may origin (keeper.socket.toList ++ []) ∧
      keeper.Claims world.host := by
  have hpending := hs.leaves hleaves fun socket hsocket =>
    ⟨target, listener_of_mem_keptAt hsocket⟩
  rw [ids_keptAt, ← List.append_nil keeper.socket.toList] at hpending
  refine ⟨hpending, fun id hid => ⟨target, hport.symm, ?_⟩⟩
  have hleft : Socket.listener id target ∈ keptAt target (some keeper) := by
    simp [keptAt, Option.mem_def.mp hid]
  rw [hleaves.sockets]
  exact List.mem_append_left _ hleft

/-- The keeper that a question gave is stored under a name. -/
theorem store_kept {world : World Host} {target : Endpoint} {keeper : Keeper}
    (hs : s.Sound may origin [])
    (hleaves : s.world.host.Leaves world.host (keptAt target (some keeper)))
    (hport : keeper.port = target.port) (name : String) :
    (({ s with world }).storeKeeper name keeper).Sound may origin [] := by
  obtain ⟨hpending, hclaims⟩ := hs.kept_pending hleaves hport
  exact hpending.storeKeeper hclaims name

/-- A keeper that is released stays under its name, and its socket is closed. -/
theorem release {name : String} {keeper : Keeper} (hs : s.Sound may origin [])
    (hfound : s.keepers.lookup name = some keeper) :
    ({ s with
        keepers := (name, { keeper with socket := none }) :: without name s.keepers
        world := { s.world with toLogged := keeper.drop s.world.toLogged } }).Sound
      may origin [] := by
  let released : Keeper := { keeper with socket := none }
  have hdropped : (({ s with keepers := without name s.keepers }).withLogged keeper.drop).Sound
      may origin (released.socket.toList ++ []) := (hs.without_keeper hfound).drop
  refine hdropped.insert_keeper ?_ ?_
  · exact not_mem_without name s.keepers
  · intro id hid
    cases hid

/-- A listener taken out of a keeper stays open. -/
theorem takeListener {name : String} {keeper : Keeper} {id : SocketId}
    (hs : s.Sound may origin []) (hfound : s.keepers.lookup name = some keeper)
    (hsocket : keeper.socket = some id) :
    (({ s with keepers := without name s.keepers }).storeListener name id).Sound may origin [] := by
  have hpending := hs.without_keeper hfound
  rw [hsocket] at hpending
  exact hpending.storeListener name

/-- Every step keeps a session sound, if other programs listen only where they may. -/
theorem step (hs : s.Sound may origin []) (fuel : Nat) {request : Request}
    (hallowed : request.Allowed may s.world.host) :
    (s.step fuel request).2.Sound may origin [] := by
  have hrandom := Allocator.randomPort_leavesOpen s.service.prober s.service.generator
    s.service.config fuel
  cases request with
  | available port protocol address =>
    exact hs.ask_answer (s.service.isAvailable_leavesOpen port protocol address) _
  | availableByDefault port protocol =>
    exact hs.ask_answer (s.service.isAvailable_leavesOpen port protocol _) _
  | random protocol address membership =>
    exact hs.ask_answer (hrandom protocol address membership) _
  | randomByDefault protocol => exact hs.ask_answer (hrandom protocol _ false) _
  | randomInRange lower upper protocol =>
    exact hs.ask_answer (Allocator.randomPortInRange_leavesOpen s.service.prober
      s.service.generator s.service.config fuel lower upper protocol _) _
  | keep name port protocol address =>
    have hleaves := s.service.keep_leavesOpen port protocol address s.world hs.balanced
    have hgives := s.service.keep_answers port protocol address s.world
    simp only [Session.step, ask]
    rcases hrun : s.service.keep port protocol address s.world with ⟨stop | kept, world⟩ <;>
      rw [hrun] at hleaves
    · exact hs.leaves_nothing hleaves
    cases kept with
    | none => exact hs.leaves_nothing hleaves
    | some keeper => exact hs.store_kept hleaves (hgives _ _ hrun keeper rfl).port name
  | keepRandom name protocol address membership =>
    have hleaves := Allocator.randomKeeper_leavesOpen s.service.prober s.service.generator
      s.service.config fuel protocol address membership s.world hs.balanced
    simp only [Session.step, ask, Service.randomKeeper, Service.allocator]
    rcases hrun : (Allocator.ofConfig s.service.prober.probe s.service.generator
      s.service.config).randomKeeper fuel protocol address membership s.world with
      ⟨stop | keeper, world⟩ <;> rw [hrun] at hleaves
    · exact hs.leaves_nothing hleaves
    · exact hs.store_kept hleaves rfl name
  | release name =>
    simp only [Session.step]
    cases hfound : s.keepers.lookup name with
    | none => exact hs
    | some keeper =>
      have hreleased := hs.release hfound
      rw [← keeper.release_fst s.world.toLogged] at hreleased
      exact hreleased
  | inspect name =>
    simp only [Session.step]
    cases s.keepers.lookup name <;> exact hs
  | drop name => exact (hs.dropKeeper name).dropListener name
  | takeListener name =>
    simp only [Session.step]
    cases hfound : s.keepers.lookup name with
    | none => exact hs
    | some keeper =>
      have hpending := hs.without_keeper hfound
      dsimp only
      cases hsocket : keeper.socket with
      | none =>
        rw [hsocket] at hpending
        exact hpending
      | some id => exact hs.takeListener hfound hsocket
  | foreignListens target => exact hs.with_foreign (hs.goes.listens hallowed)
  | foreignStops target => exact hs.with_foreign (hs.goes.stops target)

end Sound

/-- A run: each step brings a service and asks it, or another program starts or stops listening. -/
inductive Run (may : Host → Endpoint → Prop) : Session → Session → Prop
  /-- Nothing is asked. -/
  | refl (s : Session) : Run may s s
  /-- One more step. -/
  | step {s t : Session} (service : Service) (fuel : Nat) {request : Request} :
      Run may s t → request.Allowed may t.world.host →
      Run may s (({ t with service }).step fuel request).2

/-- A session in which nothing has happened yet, on any host. -/
structure Fresh (s : Session) : Prop where
  /-- There is no keeper. -/
  keepers : s.keepers = []
  /-- There is no listener. -/
  listeners : s.listeners = []
  /-- The program has no socket. -/
  sockets : s.world.host.sockets = []
  /-- No socket was created. -/
  created : s.world.host.created = 0
  /-- No call was made. -/
  trace : s.world.host.trace = []

/-- A session in which nothing has happened yet, on a host that has its loopback addresses. -/
def onLoopback : Session where
  service := { config := {}, prober := {}, generator := 0 }
  world := {
    state := {
      assigned := [⟨.v4 .loopback, 0⟩, ⟨.v6 .loopback, 0⟩]
      interfaces := [⟨"lo", .internet ⟨.v4 .loopback, 0⟩⟩, ⟨"lo", .internet ⟨.v6 .loopback, 0⟩⟩] }
    randomness := { entropy := .cycle [] } }

/-- Nothing has happened there. -/
theorem fresh_onLoopback : onLoopback.Fresh := by
  constructor <;> rfl

/-- A session that a run can lead to. -/
def Reachable (may : Host → Endpoint → Prop) (s : Session) : Prop :=
  ∃ start : Session, start.Fresh ∧ Run may start s

variable {may : Host → Endpoint → Prop} {s t : Session}

/-- A session in which nothing has happened yet is sound. -/
theorem Fresh.sound (hs : s.Fresh) : s.Sound may s.world.host [] where
  goes := .refl _
  balanced := .of_untouched hs.sockets hs.trace
  owned := by simp [owned, Host.ids, hs.keepers, hs.listeners, hs.sockets]
  keeperNames := by simp [hs.keepers]
  listenerNames := by simp [hs.listeners]
  listening := by simp [hs.sockets]
  claims := by simp [hs.keepers]

/-- A run keeps a session sound. -/
theorem Run.sound {origin : Host} (hrun : Run may s t) (hs : s.Sound may origin []) :
    t.Sound may origin [] := by
  induction hrun with
  | refl => exact hs
  | @step u service fuel _ _ hallowed ih =>
    have hasked : ({ u with service }).Sound may origin [] := ih.congr rfl rfl rfl
    exact hasked.step fuel hallowed

/-- What a session can be led to is sound, from its own beginning. -/
theorem Reachable.sound (hs : s.Reachable may) : ∃ origin, s.Sound may origin [] := by
  obtain ⟨start, hstart, hrun⟩ := hs
  exact ⟨start.world.host, hrun.sound hstart.sound⟩

/-- A step that is known to give a reply leads somewhere. -/
theorem exists_step_eq {fuel : Nat} {request : Request} {reply : Reply}
    (hreply : (s.step fuel request).1 = reply) : ∃ t, s.step fuel request = (reply, t) :=
  ⟨(s.step fuel request).2, by rw [← hreply]⟩

end Session

end PortWarden
