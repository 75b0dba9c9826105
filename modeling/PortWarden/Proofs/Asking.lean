import PortWarden.Proofs.Surfacing

/-!
# What a host is asked for

A question about a port asks its host only for what belongs to that port and the address that it is
asked about. Nothing but the program's own sockets, the record and the count of failures is changed
by that: the interfaces, those who answer in groups and the names that the resolver knows stay.
-/

namespace PortWarden

namespace Host

/-- What happens to a host that is asked only for what it may be asked for. -/
structure Asked (may : Action → Prop) (h h' : Host) : Prop where
  /-- The interfaces stay. -/
  interfaces : h'.interfaces = h.interfaces
  /-- Those who answer in groups stay. -/
  responders : h'.responders = h.responders
  /-- The resolver knows the same names. -/
  names : h'.names = h.names
  /-- Calls are added to the record, and all of them are allowed. -/
  calls : ∃ more, h'.calls = h.calls ++ more ∧ ∀ call ∈ more, may call.action

namespace Asked

variable {may may' : Action → Prop} {h m h' : Host}

/-- Nothing is asked. -/
theorem refl (may : Action → Prop) (h : Host) : h.Asked may h :=
  ⟨rfl, rfl, rfl, [], by simp⟩

/-- More is asked. -/
theorem trans (hfirst : h.Asked may m) (hrest : m.Asked may h') : h.Asked may h' where
  interfaces := hrest.interfaces.trans hfirst.interfaces
  responders := hrest.responders.trans hfirst.responders
  names := hrest.names.trans hfirst.names
  calls := by
    obtain ⟨calls, hcalls, hmay⟩ := hfirst.calls
    obtain ⟨calls', hcalls', hmay'⟩ := hrest.calls
    refine ⟨calls ++ calls', by rw [hcalls', hcalls, List.append_assoc], fun call hcall => ?_⟩
    exact (List.mem_append.mp hcall).elim (hmay call) (hmay' call)

/-- What is allowed is allowed where more is. -/
theorem mono (hasked : h.Asked may h') (hmore : ∀ action, may action → may' action) :
    h.Asked may' h' where
  interfaces := hasked.interfaces
  responders := hasked.responders
  names := hasked.names
  calls := by
    obtain ⟨calls, hcalls, hmay⟩ := hasked.calls
    exact ⟨calls, hcalls, fun call hcall => hmore _ (hmay call hcall)⟩

/-- Counting a call against the faults asks for nothing. -/
theorem strike (may : Action → Prop) (h : Host) (operation : Operation) (site : Option CallSite) :
    h.Asked may (h.strike operation site).2 :=
  ⟨rfl, rfl, rfl, [], by simp⟩

/-- Changing a socket asks for nothing. -/
theorem update (may : Action → Prop) (h : Host) (id : SocketId) (change : Socket → Socket) :
    h.Asked may (h.update id change) :=
  ⟨rfl, rfl, rfl, [], by simp⟩

/-- A call on record asks for what it asks for. -/
theorem record (h : Host) {call : Call} (hcall : may call.action) : h.Asked may (h.record call) :=
  ⟨rfl, rfl, rfl, [call], by simp, by simpa using hcall⟩

/-- A new socket is asked for. -/
theorem withSocket (h : Host) {family : Family} {kind : SocketKind}
    (hcreate : may (.create family kind)) : h.Asked may (h.withSocket family kind) :=
  ⟨rfl, rfl, rfl, [Call.on (h.created + 1) (.create family kind)], by simp,
    List.forall_mem_singleton.mpr hcreate⟩

/-- The close of a socket is asked for. -/
theorem close (h : Host) (id : SocketId) (hclose : may .close) : h.Asked may (h.close id) :=
  ⟨rfl, rfl, rfl, [Call.on id .close], by simp, List.forall_mem_singleton.mpr hclose⟩

end Asked

end Host

/-- A question that asks a host with certain interfaces only for what may be asked for. -/
def AsksOnly {σ ε α : Type} (host : σ → Host) (entries : List InterfaceEntry) (may : Action → Prop)
    (question : ExceptT ε (StateM σ) α) : Prop :=
  ∀ s, (host s).interfaces = entries → (host s).Asked may (host (question s).2)

namespace AsksOnly

variable {σ ε α β : Type} {host : σ → Host} {entries : List InterfaceEntry}
  {may may' : Action → Prop}

/-- An answer that is known beforehand asks for nothing. -/
theorem pure (a : α) : AsksOnly host entries may (pure a : ExceptT ε (StateM σ) α) :=
  fun s _ => .refl may (host s)

/-- A failure by itself asks for nothing. -/
theorem throw (e : ε) : AsksOnly host entries may (throw e : ExceptT ε (StateM σ) α) :=
  fun s _ => .refl may (host s)

/-- A change of the state around the host asks for nothing. -/
theorem modify {f : σ → σ} (hf : ∀ s, host (f s) = host s) :
    AsksOnly host entries may (modify f : ExceptT ε (StateM σ) Unit) := by
  intro s _
  rw [modify_apply, hf]
  exact .refl may (host s)

/-- A chain asks for what its steps ask for, and the interfaces are the same at each of them. -/
theorem chain_of_answers {x : ExceptT ε (StateM σ) α} {f : α → ExceptT ε (StateM σ) β}
    (hx : AsksOnly host entries may x) (holds : α → Prop)
    (hanswers : ∀ s, (host s).interfaces = entries → ∀ a t, x s = (.ok a, t) → holds a)
    (hf : ∀ a, holds a → AsksOnly host entries may (f a)) :
    AsksOnly host entries may (x >>= f) := by
  intro s hentries
  have hfirst := hx s hentries
  rw [chain_apply]
  rcases hrun : x s with ⟨e | a, t⟩ <;> rw [hrun] at hfirst
  · exact hfirst
  · have hrest := hf a (hanswers s hentries a t hrun) t (hfirst.interfaces.trans hentries)
    exact hfirst.trans hrest

/-- A chain asks for what its steps ask for. -/
theorem chain {x : ExceptT ε (StateM σ) α} {f : α → ExceptT ε (StateM σ) β}
    (hx : AsksOnly host entries may x) (hf : ∀ a, AsksOnly host entries may (f a)) :
    AsksOnly host entries may (x >>= f) :=
  hx.chain_of_answers (fun _ => True) (fun _ _ _ _ _ => True.intro) fun a _ => hf a

/-- What is allowed is allowed where more is. -/
theorem mono {x : ExceptT ε (StateM σ) α} (hx : AsksOnly host entries may x)
    (hmore : ∀ action, may action → may' action) : AsksOnly host entries may' x :=
  fun s hentries => (hx s hentries).mono hmore

/-- A question on the whole state asks for what it asks for on the host. -/
theorem onWorld {question : Probing Host α} (hx : AsksOnly Logged.state entries may question) :
    AsksOnly World.host entries may (Probing.onWorld question) := by
  intro w hentries
  have hasked := hx w.toLogged hentries
  simp only [Probing.onWorld]
  rcases hrun : question w.toLogged with ⟨failure | a, l⟩ <;> rw [hrun] at hasked <;> exact hasked

end AsksOnly

/-- System calls that ask only for what may be asked for, whatever the interfaces are. -/
abbrev CallsOnly {α : Type} (may : Action → Prop) (calls : SystemCall α) : Prop :=
  ∀ h : Host, h.Asked may (calls h).2

namespace CallsOnly

variable {may : Action → Prop}

/-- A chain of calls asks for what the calls ask for. -/
theorem chain {α β : Type} {x : SystemCall α} {f : α → SystemCall β} (hx : CallsOnly may x)
    (hf : ∀ a, CallsOnly may (f a)) : CallsOnly may (x >>= f) := by
  intro h
  have hchain : AsksOnly (fun h : Host => h) h.interfaces may (x >>= f) :=
    AsksOnly.chain (fun m _ => hx m) fun a m _ => hf a m
  exact hchain h rfl

/-- A call asks for what it is about. -/
theorem perform {operation : Operation} {site : Option CallSite} {call : Call}
    {effect : Host → Host} (hcall : may call.action)
    (heffect : ∀ h : Host, h.Asked may (effect h)) :
    CallsOnly may (Host.perform operation site call effect) := by
  intro h
  have hstrike := Host.Asked.strike may h operation site
  simp only [Host.perform]
  rcases hrun : h.strike operation site with ⟨_ | errno, m⟩ <;> rw [hrun] at hstrike
  · exact (hstrike.trans (heffect m)).trans (.record (effect m) hcall)
  · have hfailed : may { call with failure := some errno }.action := hcall
    exact hstrike.trans (.record m hfailed)

/-- Binding a socket asks for its endpoint. -/
theorem bind (id : SocketId) (kind : SocketKind) {target : Endpoint}
    (hbind : may (.bind target)) : CallsOnly may (Host.bind id kind target) := by
  intro h
  have hstrike := Host.Asked.strike may h .bind (some target.site)
  simp only [Host.bind]
  rcases hrun : h.strike .bind (some target.site) with ⟨fault, m⟩
  rw [hrun] at hstrike
  dsimp only
  cases fault.or (m.bindFault? kind target) with
  | none => exact (hstrike.trans (.update may m id _)).trans (.record _ hbind)
  | some errno => exact hstrike.trans (.record m hbind)

/-- Listening asks for nothing else. -/
theorem listen (id : SocketId) {backlog : Nat} (hlisten : may (.listen backlog)) :
    CallsOnly may (Host.listen id backlog) :=
  fun h => perform hlisten (fun m => .update may m id _) h

/-- Waiting for an answer asks for nothing else. -/
theorem receive (id : SocketId) (hreceive : ∀ sender, may (.receive sender)) :
    CallsOnly may (Host.receive id) := by
  intro h
  have hstrike := Host.Asked.strike may h .receive
    ((h.socket? id >>= (·.destination)).map Endpoint.site)
  simp only [Host.receive]
  rcases hrun : h.strike .receive ((h.socket? id >>= (·.destination)).map Endpoint.site) with
    ⟨_ | errno, m⟩ <;> rw [hrun] at hstrike <;> dsimp only
  · split <;> exact hstrike.trans (.record m (hreceive _))
  · exact hstrike.trans (.record m (hreceive _))

/-- Making a socket listen asks for its endpoint. -/
theorem listenOn (id : SocketId) {target : Endpoint}
    (hmay : ∀ action ∈ listenActions target, may action) : CallsOnly may (listenOn id target) := by
  simp only [listenActions, List.forall_mem_cons] at hmay
  obtain ⟨hreuse, hbind, hlisten, -⟩ := hmay
  exact (perform hreuse fun m => .refl may m).chain fun _ =>
    (bind id .stream hbind).chain fun _ => listen id hlisten

/-- Opening a listener asks for its endpoint, and may close the socket again. -/
theorem openListener {target : Endpoint} (hcreate : may (.create target.family .stream))
    (hclose : may .close) (hmay : ∀ action ∈ listenActions target, may action) :
    CallsOnly may (openListener target) := by
  intro h
  have hstrike := Host.Asked.strike may h .create none
  rw [openListener_apply, Host.create_apply]
  rcases hrun : h.strike .create none with ⟨_ | errno, m⟩ <;> rw [hrun] at hstrike
  · have hnew := hstrike.trans (.withSocket m hcreate)
    have hlisten := listenOn (m.created + 1) hmay (m.withSocket target.family .stream)
    dsimp only
    rcases hrun : PortWarden.listenOn (m.created + 1) target
      (m.withSocket target.family .stream) with ⟨errno | _, m'⟩ <;> rw [hrun] at hlisten
    · exact (hnew.trans hlisten).trans (.close m' _ hclose)
    · exact hnew.trans hlisten
  · exact hstrike.trans (.record m hcreate)

end CallsOnly

/-- Finding out the interface addresses asks for the list of interfaces. -/
theorem InterfaceSource.addresses_asksOnly (source : InterfaceSource)
    {entries : List InterfaceEntry} {may : Action → Prop}
    (hlist : ∀ count, may (.listInterfaces count)) :
    AsksOnly Logged.state entries may source.addresses := by
  intro w _
  cases source with
  | fixed addresses => exact .refl may w.state
  | system =>
    have hstrike := Host.Asked.strike may w.state .listInterfaces none
    simp only [addresses, Host.listInterfaces]
    rcases hrun : w.state.strike .listInterfaces none with ⟨_ | errno, m⟩ <;>
      rw [hrun] at hstrike <;> exact hstrike.trans (.record m (hlist _))

/-- The addresses that are found out are those of the interfaces. -/
theorem InterfaceSource.eq_listed {source : InterfaceSource} {w w' : Logged Host}
    {is : List InterfaceAddress} (hrun : source.addresses w = (.ok is, w')) :
    is = source.listed w.state := by
  cases source with
  | fixed addresses =>
    cases hrun
    rfl
  | system =>
    have hstrike : (w.state.strike .listInterfaces none).2.interfaces = w.state.interfaces := rfl
    simp only [addresses, Host.listInterfaces] at hrun
    rcases hcount : w.state.strike .listInterfaces none with ⟨_ | errno, m⟩ <;>
      rw [hcount] at hrun hstrike <;> cases hrun
    simp only [listed, ← hstrike]

namespace Prober

variable (p : Prober)

/-- The endpoints on which a stream port is checked: that of the address, or else those of the whole
host. -/
def endpoints (entries : List InterfaceEntry) (port : UInt16) : Option Address → List Endpoint
  | some address => [address.endpoint port]
  | none => p.targets { interfaces := entries } port

/-- What a question about a port asks the host for. A stream port is tried on its endpoints, and a
multicast port is asked about in its group. -/
def Asks (entries : List InterfaceEntry) (protocol : Protocol) (address : Option Address)
    (port : UInt16) : Action → Prop
  | .bind target =>
    match protocol with
    | .stream => target ∈ p.endpoints entries port address
    | .multicast =>
      target = (Address.unspecified (address.getD p.options.group).family).endpoint 0
  | .joinOnInterface group _ => protocol = .multicast ∧ address.getD p.options.group = .v4 group
  | .joinOnIndex group _ => protocol = .multicast ∧ address.getD p.options.group = .v6 group
  | .send _ target =>
    protocol = .multicast ∧ target = (address.getD p.options.group).endpoint port
  | .listen _ | .listInterfaces _ => protocol = .stream
  | .timeout _ | .multicastInterface _ | .receive _ => protocol = .multicast
  | .resolve _ | .sleep _ => False
  | .create _ _ | .reuseAddress | .close => True

section

variable {entries : List InterfaceEntry} {may : Action → Prop}

/-- Giving a claim back asks for the close of its socket. -/
theorem released_asksOnly {claim : Probing Host (Option Keeper)}
    (hclaim : AsksOnly Logged.state entries may claim) (hclose : may .close) :
    AsksOnly Logged.state entries may (released claim) := by
  intro w hentries
  have hasked := hclaim w hentries
  simp only [released]
  rcases hrun : claim w with ⟨failure | _ | ⟨port, _ | id⟩, m⟩ <;> rw [hrun] at hasked
  · exact hasked
  · exact hasked
  · exact hasked
  · exact hasked.trans (.close m.state id hclose)

end

section

variable {entries : List InterfaceEntry} {port : UInt16} {address : Option Address}

/-- A claim on one of the endpoints asks for that. -/
theorem claim_asksOnly {target : Endpoint} (htarget : target ∈ p.endpoints entries port address) :
    AsksOnly Logged.state entries (p.Asks entries .stream address port) (p.claim target) := by
  intro w _
  have hmay : ∀ action ∈ listenActions target, p.Asks entries .stream address port action := by
    simp only [listenActions, List.forall_mem_cons]
    exact ⟨trivial, htarget, rfl, by simp⟩
  have hasked : w.state.Asked (p.Asks entries .stream address port)
      (openListener target w.state).2 :=
    CallsOnly.openListener True.intro True.intro hmay w.state
  rwa [← (p.claim_outcome target w).1] at hasked

/-- A check on one of the endpoints asks for that. -/
theorem isFree_asksOnly {target : Endpoint} (htarget : target ∈ p.endpoints entries port address) :
    AsksOnly Logged.state entries (p.Asks entries .stream address port) (p.isFree target) :=
  released_asksOnly (p.claim_asksOnly htarget) True.intro

/-- Checks on interface addresses ask for their endpoints. -/
theorem isFreeOnEach_asksOnly {is : List InterfaceAddress}
    (his : ∀ i ∈ is, i.endpoint port ∈ p.endpoints entries port address) :
    AsksOnly Logged.state entries (p.Asks entries .stream address port)
      (p.isFreeOnEach port is) := by
  induction is with
  | nil => exact .pure true
  | cons i is ih =>
    obtain ⟨hi, his⟩ := List.forall_mem_cons.mp his
    refine (p.isFree_asksOnly hi).chain fun free => ?_
    cases free with
    | true => exact ih his
    | false =>
      have hnote : AsksOnly Logged.state entries (p.Asks entries .stream address port)
          (modify (·.note (.interfaceInUse port i.name i.address)) : Probing Host Unit) :=
        .modify fun _ => rfl
      exact hnote.chain fun _ => .pure false

/-- The checks on the whole host ask for its endpoints. -/
theorem checkEverywhere_asksOnly :
    AsksOnly Logged.state entries (p.Asks entries .stream none port) (p.checkEverywhere port) := by
  have hwildcard : Address.wildcard.endpoint port ∈ p.endpoints entries port none := .head _
  refine (p.isFree_asksOnly hwildcard).chain fun free => ?_
  cases free with
  | false => exact .pure false
  | true =>
    refine (p.interfaces.addresses_asksOnly fun _ => rfl).chain_of_answers
      (fun is => is = p.interfaces.listed { interfaces := entries }) ?_ ?_
    · rintro w hentries is w' hrun
      rw [InterfaceSource.eq_listed hrun]
      exact InterfaceSource.listed_congr hentries
    · rintro is rfl
      exact p.isFreeOnEach_asksOnly fun i hi => .tail _ (List.mem_map.mpr ⟨i, hi, rfl⟩)

/-- A claim of a stream port asks for its endpoints. -/
theorem claimStream_asksOnly (address : Option Address) :
    AsksOnly Logged.state entries (p.Asks entries .stream address port)
      (p.claimStream port address) := by
  cases address with
  | some address => exact p.claim_asksOnly (.head _)
  | none =>
    change AsksOnly _ _ _ (p.claimEverywhere port)
    rw [claimEverywhere_eq]
    refine p.checkEverywhere_asksOnly.chain fun free => ?_
    cases free with
    | false => exact .pure none
    | true => exact p.claim_asksOnly (.head _)

/-- Sending the message asks for the group and the port. -/
theorem sendPing_callsOnly (entries : List InterfaceEntry) (port : UInt16) (id : SocketId)
    (address : Option Address) :
    CallsOnly (p.Asks entries .multicast address port)
      (p.sendPing id ((address.getD p.options.group).endpoint port)) := by
  have hjoin (group : Address) (hgroup : address.getD p.options.group = group) :
      CallsOnly (p.Asks entries .multicast address port) (p.joinGroup id group) := by
    have hbind : p.Asks entries .multicast address port
        (.bind ((Address.unspecified group.family).endpoint 0)) := by rw [← hgroup]; rfl
    cases group with
    | v4 group =>
      refine (CallsOnly.bind id .datagram hbind).chain fun _ => ?_
      have hon (interface : IPv4) : CallsOnly (p.Asks entries .multicast address port)
          (Host.joinOnInterface id group interface) :=
        .perform ⟨rfl, hgroup⟩ fun m => .refl _ m
      dsimp only
      split
      · exact hon _
      · exact CallsOnly.chain (.perform rfl fun m => .refl _ m) fun _ => hon _
    | v6 group =>
      exact (CallsOnly.bind id .datagram hbind).chain fun _ =>
        .perform ⟨rfl, hgroup⟩ fun m => .refl _ m
  refine CallsOnly.chain (.perform True.intro fun m => .refl _ m) fun _ => ?_
  refine CallsOnly.chain (.perform rfl fun m => .refl _ m) fun _ => ?_
  refine (hjoin _ rfl).chain fun _ => ?_
  exact .perform ⟨rfl, rfl⟩ fun m => .update _ m id _

/-- Asking in a group asks for the group and the port. -/
theorem pingGroup_asked (entries : List InterfaceEntry) (port : UInt16) (address : Option Address)
    (w : Logged Host) :
    w.state.Asked (p.Asks entries .multicast address port)
      (p.pingGroup ((address.getD p.options.group).endpoint port) w).2.state := by
  let target := (address.getD p.options.group).endpoint port
  have hstrike := Host.Asked.strike (p.Asks entries .multicast address port) w.state .create none
  simp only [pingGroup, Host.create_apply]
  rcases hcreate : w.state.strike .create none with ⟨_ | errno, m⟩ <;> rw [hcreate] at hstrike
  · have hnew : w.state.Asked _ (m.withSocket target.family .datagram) :=
      hstrike.trans (.withSocket m True.intro)
    have hsent := p.sendPing_callsOnly entries port (m.created + 1) address
      (m.withSocket target.family .datagram)
    dsimp only
    -- whatever becomes of the question, the socket made for it is closed
    rcases hrun : p.sendPing (m.created + 1) target (m.withSocket target.family .datagram) with
      ⟨errno | _, m'⟩ <;> rw [hrun] at hsent
    · exact (hnew.trans hsent).trans (.close m' _ True.intro)
    · have hreceived : m'.Asked (p.Asks entries .multicast address port)
          (Host.receive (m.created + 1) m').2 :=
        CallsOnly.receive (m.created + 1) (fun _ => rfl) m'
      have hawaited : (awaitAnswer (m.created + 1) target ⟨m', w.log⟩).2.state =
          (Host.receive (m.created + 1) m').2 := by
        simp only [awaitAnswer]
        rcases Host.receive (m.created + 1) m' with ⟨errno | sender, m''⟩
        · dsimp only
          split <;> rfl
        · rfl
      rw [← hawaited] at hreceived
      exact ((hnew.trans hsent).trans hreceived).trans (.close _ _ True.intro)
  · exact hstrike.trans (.record m True.intro)

/-- Checking a multicast port asks for the group and the port. -/
theorem isFreeInGroup_asksOnly (address : Option Address) :
    AsksOnly Logged.state entries (p.Asks entries .multicast address port)
      (p.isFreeInGroup port address) := by
  intro w _
  have hping := p.pingGroup_asked entries port address w
  simp only [isFreeInGroup]
  split
  · rcases hrun : p.pingGroup ((address.getD p.options.group).endpoint port) w with
      ⟨errno | occupied, w'⟩ <;> rw [hrun] at hping
    · dsimp only
      split <;> exact hping
    · exact hping
  · exact .refl _ _

/-- A check asks for its port on its address. -/
theorem isAvailable_asksOnly (entries : List InterfaceEntry) (port : UInt16) (protocol : Protocol)
    (address : Option Address) :
    AsksOnly Logged.state entries (p.Asks entries protocol address port)
      (p.isAvailable port protocol address) := by
  cases protocol with
  | stream => exact released_asksOnly (p.claimStream_asksOnly address) True.intro
  | multicast => exact p.isFreeInGroup_asksOnly address

/-- A claim asks for its port on its address. -/
theorem keep_asksOnly (entries : List InterfaceEntry) (port : UInt16) (protocol : Protocol)
    (address : Option Address) :
    AsksOnly Logged.state entries (p.Asks entries protocol address port)
      (p.keep port protocol address) := by
  cases protocol with
  | stream => exact p.claimStream_asksOnly address
  | multicast => exact .throw _

end

end Prober

end PortWarden
