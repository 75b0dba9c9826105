import PortWarden.Proofs.Accounting
import PortWarden.Proofs.Permanence
import PortWarden.Proofs.Reservation

/-!
# Asking, claiming and giving back

On a host whose faults are permanent a port goes through a cycle. Asking changes nothing, so the
answers stay the same. A port off the link-local block that is free can be claimed, and as long as
its listener is open everybody meets contention there, and no other error. Once the listener is
given back the host is as it was.
-/

namespace PortWarden

/-- An endpoint on which a socket listens is contended for. -/
theorem Host.isContended_of_listener {h : Host} {id : SocketId} {target : Endpoint}
    (hport : target.port ≠ 0) (hopen : Socket.listener id target ∈ h.sockets) :
    h.isContended target = true := by
  have hself : target.conflicts target = true :=
    Endpoint.conflicts_iff.mpr ⟨rfl, rfl, .inr (.inr rfl)⟩
  exact isContended_iff.mpr ⟨hport, target, mem_listeners_of_socket hopen rfl, hself⟩

namespace Prober

variable (p : Prober)

/-- Off the link-local block a keeper has its socket. -/
theorem Gives.held {p : Prober} {target : Endpoint} {keeper : Keeper}
    (hgives : p.Gives target keeper) (hlocal : target.address.isLinkLocal = false) :
    ∃ id, keeper = ⟨target.port, some id⟩ := by
  obtain ⟨port, _ | id⟩ := keeper
  · have hwaived := (hgives.waived rfl).1
    rw [hlocal] at hwaived
    cases hwaived
  · obtain rfl : port = target.port := hgives.port
    exact ⟨id, rfl⟩

/-- If a port is found to be in use, no keeper is given for it. -/
theorem keep_eq_none_of_taken {port : UInt16} {address : Option Address} {w : Logged Host}
    (htaken : (p.isAvailable port .stream address w).1 = .ok false) :
    (p.keep port .stream address w).1 = .ok none := by
  rw [isAvailable_fst_eq_keep] at htaken
  rcases hclaim : (p.keep port .stream address w).1 with failure | _ | keeper
  · rw [hclaim] at htaken
    cases htaken
  · rfl
  · rw [hclaim] at htaken
    cases htaken

/-- Where a listener could be opened before, everybody is refused while a socket listens there. -/
theorem refused_beside_listener {h : Host} {w : Logged Host} {port : UInt16}
    {address : Option Address} {id : SocketId} (hport : port ≠ 0)
    (hlocal : ∀ a ∈ address, a.isLinkLocal = false)
    (hbefore : h.listenFault? ((address.getD .wildcard).endpoint port) = none)
    (hs : h.Steady) (hassigned : w.state.assigned = h.assigned)
    (hfaults : w.state.faults = h.faults) (hb : w.state.Balanced)
    (hopen : Socket.listener id ((address.getD .wildcard).endpoint port) ∈ w.state.sockets) :
    (p.isAvailable port .stream address w).1 = .ok false ∧
      (p.keep port .stream address w).1 = .ok none := by
  have hsteady : w.state.Steady := hs.congr hfaults
  have hcontended := Host.isContended_of_listener hport hopen
  have hfault := Host.listenFault?_of_contended hbefore hassigned hfaults hcontended
  have htaken : (p.isAvailable port .stream address w).1 = .ok false := by
    rw [p.isAvailable_of_steady port address hb hsteady, p.verdict_of_contended hlocal hfault]
  exact ⟨htaken, p.keep_eq_none_of_taken htaken⟩

end Prober

/-- A request that only asks, and leaves nothing to its caller. -/
def Request.IsQuestion : Request → Prop
  | .available .. | .availableByDefault .. | .random .. | .randomByDefault _ | .randomInRange ..
  | .inspect _ => True
  | _ => False

/-- A request that may follow a claim of a port under a name: a question, the same claim again, or
taking the listener out of the keeper. -/
inductive Request.Follows (name : String) (port : UInt16) (address : Option Address) :
    Request → Prop
  /-- Something is asked. -/
  | asks {request : Request} : request.IsQuestion → Follows name port address request
  /-- The port is claimed again, under any name. -/
  | claims (other : String) : Follows name port address (.keep other port .stream address)
  /-- The listener is taken out of the keeper. -/
  | takes : Follows name port address (.takeListener name)

/-- A request that gives back what a name stands for. -/
inductive Request.Returns (name : String) : Request → Prop
  /-- The keeper is released. -/
  | releases : Returns name (.release name)
  /-- The keeper or the listener is dropped. -/
  | drops : Returns name (.drop name)

namespace Session

/-- A run of which every request is of one sort; each step may bring another service. -/
inductive RunOf (sort : Request → Prop) : Session → Session → Prop
  /-- Nothing is asked. -/
  | refl (s : Session) : RunOf sort s s
  /-- One more step. -/
  | step {s t : Session} (service : Service) (fuel : Nat) {request : Request} :
      RunOf sort s t → sort request → RunOf sort s (({ t with service }).step fuel request).2

/-- Whether a prober finds a stream port free in a session. -/
def probed (s : Session) (p : Prober) (port : UInt16) (address : Option Address) :
    Except Failure Bool :=
  (p.isAvailable port .stream address s.world.toLogged).1

/-- What a prober gives for a stream port that is claimed in a session. -/
def claimed (s : Session) (p : Prober) (port : UInt16) (address : Option Address) :
    Except Failure (Option Keeper) :=
  (p.keep port .stream address s.world.toLogged).1

/-- From one session to another with the same keepers and listeners, and nothing more open. -/
structure Idles (s t : Session) : Prop where
  /-- Nothing more is open. -/
  host : s.world.host.Leaves t.world.host []
  /-- The keepers are the same. -/
  keepers : t.keepers = s.keepers
  /-- The listeners are the same. -/
  listeners : t.listeners = s.listeners

section

variable {s t u : Session}

/-- Nothing happens. -/
theorem Idles.refl (hb : s.world.host.Balanced) : s.Idles s := ⟨.refl hb, rfl, rfl⟩

/-- A question that leaves nothing open leaves the session idle. -/
theorem idles_ask {α : Type} {question : Allocating Host α} (hb : s.world.host.Balanced)
    (hquestion : LeavesOpen World.host (fun _ => []) question) (f : α → Reply) :
    s.Idles (s.ask question (answer f)).2 := by
  have hleaves := hquestion.leaves_nothing hb
  simp only [ask]
  rcases hrun : question s.world with ⟨stop | a, world⟩ <;> rw [hrun] at hleaves <;>
    exact ⟨hleaves, rfl, rfl⟩

/-- Whatever is asked, a question leaves the session idle. -/
theorem idles_question (hb : s.world.host.Balanced) (fuel : Nat) {request : Request}
    (hquestion : request.IsQuestion) : s.Idles (s.step fuel request).2 := by
  have hrandom := Allocator.randomPort_leavesOpen s.service.prober s.service.generator
    s.service.config fuel
  cases request with
  | available port protocol address =>
    exact idles_ask hb (s.service.isAvailable_leavesOpen port protocol address) _
  | availableByDefault port protocol =>
    exact idles_ask hb (s.service.isAvailable_leavesOpen port protocol _) _
  | random protocol address membership => exact idles_ask hb (hrandom protocol address membership) _
  | randomByDefault protocol => exact idles_ask hb (hrandom protocol _ false) _
  | randomInRange lower upper protocol =>
    exact idles_ask hb (Allocator.randomPortInRange_leavesOpen s.service.prober
      s.service.generator s.service.config fuel lower upper protocol _) _
  | inspect name =>
    simp only [Session.step]
    cases s.keepers.lookup name <;> exact .refl hb
  | keep | keepRandom | release | drop | takeListener | foreignListens | foreignStops =>
    exact hquestion.elim

/-- A run of questions leaves nothing more open. -/
theorem RunOf.leaves_nothing (hrun : RunOf Request.IsQuestion s t) (hb : s.world.host.Balanced) :
    s.world.host.Leaves t.world.host [] := by
  induction hrun with
  | refl => exact .refl hb
  | @step u service fuel _ _ hquestion ih =>
    exact ih.trans (idles_question (s := { u with service }) ih.balanced fuel hquestion).host

/-- On a steady host a stream port is found as it was as long as nothing more is open. -/
theorem probed_of_leaves (hb : s.world.host.Balanced) (hs : s.world.host.Steady)
    (hleaves : s.world.host.Leaves t.world.host []) (p : Prober) (port : UInt16)
    (address : Option Address) : t.probed p port address = s.probed p port address := by
  have halike := hleaves.alike hs
  have hbefore := p.isAvailable_of_steady (w := s.world.toLogged) port address hb hs
  have hafter := p.isAvailable_of_steady (w := t.world.toLogged) port address hleaves.balanced
    (halike.steady hs)
  exact hafter.trans ((p.verdict_congr halike port address).trans hbefore.symm)

/-- A claim that is refused leaves the session idle. -/
theorem idles_refused (hb : s.world.host.Balanced) {port : UInt16} {address : Option Address}
    (hrefused : s.claimed s.service.prober port address = .ok none) (fuel : Nat) (name : String) :
    s.Idles (s.step fuel (.keep name port .stream address)).2 := by
  have hleaves := s.service.keep_leavesOpen port .stream address s.world hb
  simp only [Session.step, ask]
  rcases hrun : s.service.keep port .stream address s.world with ⟨stop | _ | kept, world⟩ <;>
    rw [hrun] at hleaves
  · exact ⟨hleaves, rfl, rfl⟩
  · exact ⟨hleaves, rfl, rfl⟩
  · obtain ⟨l, hask⟩ := s.service.keep_ok hrun
    have hclaimed : s.claimed s.service.prober port address = .ok (some kept) :=
      congrArg Prod.fst hask
    rw [hrefused] at hclaimed
    cases hclaimed

end

/-- A session that has the listener which a claim under a name has added to those of `s`. -/
structure Holds (s : Session) (name : String) (id : SocketId) (target : Endpoint) (u : Session) :
    Prop where
  /-- The listener is open, beside what was open before. -/
  host : s.world.host.Leaves u.world.host [Socket.listener id target]
  /-- Either the keeper has it, or it was taken out of the keeper. -/
  place : u.keepers.lookup name = some ⟨target.port, some id⟩ ∧ u.listeners.lookup name = none ∨
    u.keepers.lookup name = none ∧ u.listeners.lookup name = some id

/-- A session in which a claim under a name has been given back. -/
structure HasReturned (s : Session) (name : String) (u : Session) : Prop where
  /-- Nothing more is open than was before the claim. -/
  host : s.world.host.Leaves u.world.host []
  /-- If there is a keeper of the name, it has no socket. -/
  keeper : ∀ keeper ∈ u.keepers.lookup name, keeper.socket = none
  /-- There is no listener of the name. -/
  listener : u.listeners.lookup name = none

/-- The service that asks is not what a session has. -/
theorem Holds.with_service {s u : Session} {name : String} {id : SocketId} {target : Endpoint}
    (hu : s.Holds name id target u) (service : Service) :
    s.Holds name id target { u with service } := ⟨hu.host, hu.place⟩

namespace Holds

variable {s u t : Session} {name : String} {id : SocketId} {port : UInt16}
  {address : Option Address}

/-- While nothing happens the listener stays where it is. -/
theorem idles {target : Endpoint} (hu : s.Holds name id target u) (hidles : u.Idles t) :
    s.Holds name id target t where
  host := hu.host.trans_nothing hidles.host
  place := by
    rw [hidles.keepers, hidles.listeners]
    exact hu.place

/-- Taking the listener out of its keeper leaves it open. -/
theorem takes {target : Endpoint} (hu : s.Holds name id target u) (fuel : Nat) :
    s.Holds name id target (u.step fuel (.takeListener name)).2 := by
  rcases hu.place with ⟨hkeeper, hlistener⟩ | ⟨hkeeper, -⟩
  · obtain ⟨-, hplace⟩ := u.disposes.takeListener fuel name _ id hkeeper rfl
    refine ⟨?_, .inr hplace⟩
    rw [step_takeListener hkeeper rfl]
    simp only [storeListener, dropListener, hlistener]
    exact hu.host
  · simp only [Session.step, hkeeper]
    exact hu

/-- While the listener is open everybody is refused. -/
theorem refused (hport : port ≠ 0) (hlocal : ∀ a ∈ address, a.isLinkLocal = false)
    (hs : s.world.host.Steady)
    (hbefore : s.world.host.listenFault? ((address.getD .wildcard).endpoint port) = none)
    (hu : s.Holds name id ((address.getD .wildcard).endpoint port) u) (q : Prober) :
    u.probed q port address = .ok false ∧ u.claimed q port address = .ok none := by
  have hopen : Socket.listener id ((address.getD .wildcard).endpoint port) ∈
      u.world.host.sockets := by
    rw [hu.host.sockets]
    exact .head _
  exact q.refused_beside_listener hport hlocal hbefore hs hu.host.assigned (hu.host.faults hs)
    hu.host.balanced hopen

/-- What may follow a claim leaves its listener open. -/
theorem follows (hport : port ≠ 0) (hlocal : ∀ a ∈ address, a.isLinkLocal = false)
    (hs : s.world.host.Steady)
    (hbefore : s.world.host.listenFault? ((address.getD .wildcard).endpoint port) = none)
    (hu : s.Holds name id ((address.getD .wildcard).endpoint port) u)
    (hrun : RunOf (Request.Follows name port address) u t) :
    s.Holds name id ((address.getD .wildcard).endpoint port) t := by
  induction hrun with
  | refl => exact hu
  | @step m service fuel _ _ hfollows ih =>
    have hm := ih.with_service service
    cases hfollows with
    | asks hquestion => exact hm.idles (idles_question hm.host.balanced fuel hquestion)
    | claims other =>
      have hrefused := (hm.refused hport hlocal hs hbefore service.prober).2
      exact hm.idles (idles_refused hm.host.balanced hrefused fuel other)
    | takes => exact hm.takes fuel

/-- A keeper that is released, and a keeper or listener that is dropped, gives the port back. -/
theorem returns {target : Endpoint} (hb : s.world.host.Balanced)
    (hu : s.Holds name id target u) (fuel : Nat) {request : Request}
    (hreturns : request.Returns name)
    (hthere : request = .release name → (u.keepers.lookup name).isSome) :
    s.HasReturned name (u.step fuel request).2 := by
  have hclosed := hu.host.close hb
  cases hreturns with
  | releases =>
    rcases hu.place with ⟨hkeeper, hlistener⟩ | ⟨hkeeper, -⟩
    · obtain ⟨-, hreleased, -⟩ := u.disposes.release fuel name _ hkeeper
      refine ⟨?_, by simp [hreleased], ?_⟩ <;> rw [step_release hkeeper]
      · exact hclosed
      · exact hlistener
    · have hnone := hthere rfl
      rw [hkeeper] at hnone
      cases hnone
  | drops =>
    obtain ⟨-, hkeepers, hlisteners⟩ := u.disposes.drop fuel name
    refine ⟨?_, by simp [hkeepers], hlisteners⟩
    rcases hu.place with ⟨hkeeper, hlistener⟩ | ⟨hkeeper, hlistener⟩
    · simp only [Session.step, dropKeeper, hkeeper, dropListener, withLogged, hlistener]
      exact hclosed
    · simp only [Session.step, dropKeeper, hkeeper, dropListener, hlistener]
      exact hclosed

end Holds

/-- Giving back once more changes nothing. -/
theorem HasReturned.returns {s u : Session} {name : String} (hu : s.HasReturned name u)
    (fuel : Nat) {request : Request} (hreturns : request.Returns name) :
    s.HasReturned name (u.step fuel request).2 := by
  have hkeeper := hu.keeper
  cases hreturns with
  | releases =>
    rcases hlookup : u.keepers.lookup name with _ | ⟨port, socket⟩
    · simp only [Session.step, hlookup]
      exact hu
    · obtain rfl : socket = none := hkeeper _ hlookup
      obtain ⟨-, hreleased, -⟩ := u.disposes.release fuel name _ hlookup
      refine ⟨?_, by simp [hreleased], ?_⟩ <;> rw [step_release hlookup]
      · exact hu.host
      · exact hu.listener
  | drops =>
    obtain ⟨-, hkeepers, hlisteners⟩ := u.disposes.drop fuel name
    refine ⟨?_, by simp [hkeepers], hlisteners⟩
    rcases hlookup : u.keepers.lookup name with _ | ⟨port, socket⟩
    · simp only [Session.step, dropKeeper, hlookup, dropListener, hu.listener]
      exact hu.host
    · obtain rfl : socket = none := hkeeper _ hlookup
      simp only [Session.step, dropKeeper, hlookup, dropListener, withLogged, hu.listener]
      exact hu.host

/-- However often it is given back, what a claim has taken stays given back. -/
theorem RunOf.hasReturned {s u t : Session} {name : String}
    (hrun : RunOf (Request.Returns name) u t) (hu : s.HasReturned name u) :
    s.HasReturned name t := by
  induction hrun with
  | refl => exact hu
  | @step m service fuel _ _ hreturns ih =>
    have hm : s.HasReturned name { m with service } := ⟨ih.host, ih.keeper, ih.listener⟩
    exact hm.returns fuel hreturns

section

variable {may : Host → Endpoint → Prop} {origin : Host} {s t : Session} {fuel : Nat}
  {name : String} {port : UInt16} {address : Option Address} {keeper : Keeper}

/-- What a claim on a steady host comes to in a session if a keeper is given: the port was free and
a listener could be opened, now there is one, and the session has it. -/
theorem Sound.claim_of_steady (hs : s.Sound may origin []) (hsteady : s.world.host.Steady)
    (hlocal : ∀ a ∈ address, a.isLinkLocal = false)
    (hkeep : s.step fuel (.keep name port .stream address) = (.keeper (some keeper), t)) :
    s.probed s.service.prober port address = .ok true ∧
      s.world.host.listenFault? ((address.getD .wildcard).endpoint port) = none ∧
      ∃ id, ∃ world : World Host, keeper = ⟨port, some id⟩ ∧
        t = ({ s with world }).storeKeeper name keeper ∧
        s.world.host.Leaves world.host
          [Socket.listener id ((address.getD .wildcard).endpoint port)] ∧
        t.Sound may world.host [] := by
  obtain ⟨world, hasked, hgives, rfl, hleaves, ht⟩ := hs.claim_given hkeep
  obtain ⟨id, rfl⟩ := hgives.held (isLinkLocal_claimed hlocal port)
  have hfound : s.probed s.service.prober port address = .ok true := by
    rw [probed, Prober.isAvailable_fst_eq_keep, hasked]
    rfl
  have hverdict : s.probed s.service.prober port address =
      s.service.prober.verdict s.world.host port address :=
    s.service.prober.isAvailable_of_steady port address hs.balanced hsteady
  have hbefore := s.service.prober.listenFault?_of_free hlocal (hverdict.symm.trans hfound)
  exact ⟨hfound, hbefore, id, world, rfl, rfl, hleaves, ht⟩

/-- A keeper that is stored under a new name has the listener of its claim. -/
theorem holds_storeKeeper {id : SocketId} {world : World Host} {target : Endpoint}
    (hkeepers : name ∉ s.keepers.map (·.1)) (hlisteners : name ∉ s.listeners.map (·.1))
    (hleaves : s.world.host.Leaves world.host [Socket.listener id target])
    (hport : target.port = port) :
    s.Holds name id target (({ s with world }).storeKeeper name ⟨port, some id⟩) := by
  have hnone {α : Type} {table : List (String × α)} (hname : name ∉ table.map (·.1)) :
      table.lookup name = none := by
    refine List.lookup_eq_none_iff.mpr fun entry hentry => bne_iff_ne.mpr ?_
    rintro rfl
    exact hname (List.mem_map_of_mem hentry)
  have hdropped : ({ s with world }).dropKeeper name = { s with world } := by
    simp only [dropKeeper, hnone hkeepers]
  simp only [storeKeeper, hdropped]
  exact ⟨hleaves, .inl ⟨by simp [hport], hnone hlisteners⟩⟩

end

/-- What a claim under a name does for the one who made it: in `s` the claim was made, and it has
led to `t` with a keeper. -/
structure Secures (may : Host → Endpoint → Prop) (s t : Session) (p : Prober) (name : String)
    (port : UInt16) (address : Option Address) (keeper : Keeper) : Prop where
  /-- The keeper has a socket that the session owns. Whatever happens, as long as the socket is open
  everybody finds the port in use and is given no keeper. -/
  blocked : ∃ id, keeper.socket = some id ∧ id ∈ t.owned ∧ ∀ u, Run may t u →
    id ∈ u.world.host.ids → ∀ q, u.probed q port address = .ok false ∧
      u.claimed q port address = .ok none
  /-- If the name is new, asking, claiming again and taking the listener out leave the socket
  open. -/
  open_of_follows : name ∉ s.keepers.map (·.1) → name ∉ s.listeners.map (·.1) →
    ∀ u, RunOf (Request.Follows name port address) t u →
      ∃ id ∈ keeper.socket, u.world.host.ids = id :: s.world.host.ids
  /-- After that, once the keeper is released or whatever has the socket is dropped, and however
  often that is repeated, the program's sockets and all listeners are those of before the claim,
  and the port is free again. -/
  restored : name ∉ s.keepers.map (·.1) → name ∉ s.listeners.map (·.1) →
    ∀ u, RunOf (Request.Follows name port address) t u →
      ∀ service fuel request, request.Returns name →
        (request = .release name → (u.keepers.lookup name).isSome) →
          ∀ v, RunOf (Request.Returns name) (({ u with service }).step fuel request).2 v →
            v.world.host.sockets = s.world.host.sockets ∧
              v.world.host.listeners = s.world.host.listeners ∧
              v.probed p port address = .ok true

/-- A claim on a steady host for which a keeper is given secures the port. -/
theorem Sound.secures {may : Host → Endpoint → Prop} {origin : Host} {s t : Session} {fuel : Nat}
    {name : String} {port : UInt16} {address : Option Address} {keeper : Keeper}
    (hs : s.Sound may origin []) (hsteady : s.world.host.Steady) (hport : port ≠ 0)
    (hlocal : ∀ a ∈ address, a.isLinkLocal = false)
    (hkeep : s.step fuel (.keep name port .stream address) = (.keeper (some keeper), t)) :
    Secures may s t s.service.prober name port address keeper := by
  obtain ⟨hfound, hbefore, id, world, rfl, rfl, hleaves, ht⟩ :=
    hs.claim_of_steady hsteady hlocal hkeep
  have hfollows (hkeepers : name ∉ s.keepers.map (·.1)) (hlisteners : name ∉ s.listeners.map (·.1))
      {u : Session} (hrun : RunOf (Request.Follows name port address)
        (({ s with world }).storeKeeper name ⟨port, some id⟩) u) :
      s.Holds name id ((address.getD .wildcard).endpoint port) u :=
    (holds_storeKeeper hkeepers hlisteners hleaves rfl).follows hport hlocal hsteady hbefore hrun
  refine ⟨⟨id, rfl, ?_, fun u hrun hid q => ?_⟩, ?_, ?_⟩
  · simp [Session.storeKeeper, Session.owned]
  · -- Other programs may have come and gone, but nothing decides whether a listener can be opened
    -- but the faults, the assigned addresses and the listener that is still there.
    have hu := hrun.sound ht
    have hsteady' : world.host.Steady := hsteady.congr (hleaves.faults hsteady)
    have hassigned := hu.goes.assigned_eq.trans hleaves.assigned
    have hfaults := (hu.goes.faults_of_steady hsteady').trans (hleaves.faults hsteady)
    have hopen := hu.listener_open hleaves (hu.owned.mem_iff.mpr hid)
    exact q.refused_beside_listener hport hlocal hbefore hsteady hassigned hfaults hu.balanced hopen
  · intro hkeepers hlisteners u hrun
    have hu := hfollows hkeepers hlisteners hrun
    exact ⟨id, rfl, by simp [Host.ids, hu.host.sockets, Socket.listener]⟩
  · intro hkeepers hlisteners u hrun service fuel' request hreturns hthere v hreturning
    have hu := (hfollows hkeepers hlisteners hrun).with_service service
    have hv := hreturning.hasReturned (hu.returns hs.balanced fuel' hreturns hthere)
    have halike := hv.host.alike hsteady
    have hagain := probed_of_leaves hs.balanced hsteady hv.host s.service.prober port address
    refine ⟨hv.host.sockets, ?_, hagain.trans hfound⟩
    simp only [Host.listeners, halike.foreign, halike.own]

/-- How a stream port is asked about, claimed and given back from a session on. -/
structure Cycles (may : Host → Endpoint → Prop) (s : Session) (service : Service) (port : UInt16)
    (address : Option Address) : Prop where
  /-- However much is asked, the sockets stay and the answer about the port is the same. -/
  asking : ∀ u, RunOf Request.IsQuestion s u →
    u.world.host.sockets = s.world.host.sockets ∧
      u.probed service.prober port address = s.probed service.prober port address
  /-- The port is found free exactly if a keeper of it is given that has its socket. -/
  free_iff : s.probed service.prober port address = .ok true ↔
    ∃ keeper, s.claimed service.prober port address = .ok (some keeper) ∧
      keeper.isHeld = true ∧ keeper.port = port
  /-- It is found in use exactly if no keeper is given. -/
  taken_iff : s.probed service.prober port address = .ok false ↔
    s.claimed service.prober port address = .ok none
  /-- Both questions fail together, and in the same way. -/
  failure_iff : ∀ failure, s.probed service.prober port address = .error failure ↔
    s.claimed service.prober port address = .error failure
  /-- A keeper that is given secures the port until it is given back. -/
  claiming : ∀ {fuel name keeper t},
    ({ s with service }).step fuel (.keep name port .stream address) = (.keeper (some keeper), t) →
      Secures may s t service.prober name port address keeper

/-- In whatever state a session on a steady host is, a stream port off the link-local block can be
asked about without a trace, is claimed exactly if it is found free, is in use for everybody while
its listener is open, and is free again once that is given back. -/
theorem Reachable.claim_cycle {may : Host → Endpoint → Prop} {s : Session} (hs : s.Reachable may)
    (hsteady : s.world.host.Steady) (service : Service) {port : UInt16} (hport : port ≠ 0)
    {address : Option Address} (hlocal : ∀ a ∈ address, a.isLinkLocal = false) :
    s.Cycles may service port address := by
  obtain ⟨origin, hsound⟩ := hs.sound
  have hb := hsound.balanced
  have hsame := service.prober.isAvailable_fst_eq_keep port address s.world.toLogged
  change s.probed service.prober port address =
    (s.claimed service.prober port address).map (·.isSome) at hsame
  have hheld : ∀ keeper, s.claimed service.prober port address = .ok (some keeper) →
      keeper.isHeld = true ∧ keeper.port = port := by
    intro keeper hclaim
    have hgives := service.prober.keep_answers port .stream address _ _ _
      (Prod.ext_iff.mpr ⟨hclaim, rfl⟩) keeper rfl
    obtain ⟨id, rfl⟩ := hgives.held (isLinkLocal_claimed hlocal port)
    exact ⟨rfl, rfl⟩
  refine ⟨fun u hrun => ?_, ?_, ?_, fun failure => ?_, fun {fuel name keeper t} hkeep => ?_⟩
  · have hleaves := hrun.leaves_nothing hb
    exact ⟨hleaves.sockets, probed_of_leaves hb hsteady hleaves service.prober port address⟩
  · rw [hsame]
    rcases hclaim : s.claimed service.prober port address with failure | _ | keeper
    · simp [Except.map]
    · simp [Except.map]
    · simpa [Except.map] using hheld keeper hclaim
  · rw [hsame]
    rcases s.claimed service.prober port address with failure | _ | keeper <;> simp [Except.map]
  · rw [hsame]
    rcases s.claimed service.prober port address with other | _ | keeper <;> simp [Except.map]
  · have hasked : ({ s with service }).Sound may origin [] := hsound.congr rfl rfl rfl
    have hsecures := hasked.secures hsteady hport hlocal hkeep
    exact ⟨hsecures.blocked, hsecures.open_of_follows, hsecures.restored⟩

/-- On a host that lets nobody have port 20002, port 20001 can be kept on `127.0.0.1`, is in use
then, and is free again once it is released. -/
theorem claim_cycle_on_loopback :
    let s := onLoopback.withHost fun h =>
      { h with faults := [{ operation := .bind, errno := .accessDenied, port := some 20002 }] }
    let t := (s.step 0 (.keep "kept" 20001 .stream (some (.v4 .loopback)))).2
    let v := (t.step 0 (.release "kept")).2
    s.world.host.Steady ∧ s.probed s.service.prober 20002 (some (.v4 .loopback)) = .ok false ∧
      t.probed s.service.prober 20001 (some (.v4 .loopback)) = .ok false ∧
      v.world.host.sockets = [] ∧
      v.probed s.service.prober 20001 (some (.v4 .loopback)) = .ok true := by
  intro s t v
  have hfresh : s.Fresh := by constructor <;> rfl
  have hreachable : s.Reachable anywhere := ⟨s, hfresh, .refl s⟩
  have hsteady : s.world.host.Steady := by
    intro f hf
    obtain rfl := List.mem_singleton.mp hf
    exact ⟨rfl, rfl⟩
  have hlocal : ∀ a ∈ some (Address.v4 .loopback), a.isLinkLocal = false := by
    rintro a ⟨rfl⟩
    rfl
  have hport : (20001 : UInt16) ≠ 0 := by decide
  have hcycles := hreachable.claim_cycle hsteady s.service hport hlocal
  have hreply : (s.step 0 (.keep "kept" 20001 .stream (some (.v4 .loopback)))).1 =
      .keeper (some ⟨20001, some 1⟩) := by
    decide +kernel
  have hsecures := hcycles.claiming (Prod.ext_iff.mpr ⟨hreply, rfl⟩)
  obtain ⟨id, hid, -, hrefused⟩ := hsecures.blocked
  obtain rfl : 1 = id := Option.some.inj hid
  have hopen : 1 ∈ t.world.host.ids := by decide +kernel
  have hthere : Request.release "kept" = .release "kept" → (t.keepers.lookup "kept").isSome :=
    fun _ => by decide +kernel
  have hrestored := hsecures.restored List.not_mem_nil List.not_mem_nil t (.refl t) t.service 0 _
    .releases hthere v (.refl v)
  exact ⟨hsteady, by decide +kernel, (hrefused t (.refl t) hopen s.service.prober).1, hrestored.1,
    hrestored.2.2⟩

end Session

end PortWarden
