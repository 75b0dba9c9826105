import PortWarden.Proofs.Exclusivity
import PortWarden.Proofs.Verdict

/-!
# How far a claim on the whole host reaches

A claim on the whole host checks every interface address, of either family, but what it keeps is one
socket on the IPv4 wildcard. As long as that socket is open the port is taken on every IPv4 address;
on an IPv6 address it is as free as it would be without the claim.
-/

namespace PortWarden

/-- The endpoint of a port on an interface address is on that address. -/
@[simp] theorem InterfaceAddress.endpoint_address (i : InterfaceAddress) (port : UInt16) :
    (i.endpoint port).address = i.address := by
  obtain ⟨name, a | a, scope⟩ := i <;> rfl

/-- Without a scope an interface address is like any other. -/
theorem InterfaceAddress.endpoint_of_no_scope {i : InterfaceAddress} (hscope : i.scope = 0)
    (port : UInt16) : i.endpoint port = i.address.endpoint port := by
  obtain ⟨name, a | a, scope⟩ := i
  · rfl
  · obtain rfl := hscope
    rfl

namespace Prober

variable (p : Prober)

/-- Off the link-local block a prober admits a usable address on which nobody contends. -/
theorem admits_iff_of_usable {h : Host} {target : Endpoint}
    (husable : h.addressFault? target.toScopedAddress = none)
    (hlocal : target.address.isLinkLocal = false) :
    p.Admits h target ↔ h.isContended target = false := by
  simp [Admits, hlocal, Host.bindFault?_stream_eq_none_iff, husable]

/-- Off the link-local block what a prober admits is usable, and nobody contends there. -/
theorem usable_of_admits {h : Host} {target : Endpoint} (hadmits : p.Admits h target)
    (hlocal : target.address.isLinkLocal = false) :
    h.addressFault? target.toScopedAddress = none ∧ h.isContended target = false := by
  rcases hadmits with hrule | ⟨hwaived, -⟩
  · exact Host.bindFault?_stream_eq_none_iff.mp hrule
  · rw [hlocal] at hwaived
    cases hwaived

/-- Without faults a port is free on an address if the prober admits it there. -/
theorem isAvailable_on_address {w : Logged Host} (hfaults : w.state.faults = []) (port : UInt16)
    (address : Address) :
    (p.isAvailable port .stream (some address) w).1 =
      .ok (decide (p.Admits w.state (address.endpoint port))) :=
  p.isFree_of_no_faults hfaults (address.endpoint port)

/-- Without faults a port off the link-local block can be claimed if the prober admits it. -/
theorem keep_on_address {w : Logged Host} (hfaults : w.state.faults = []) (port : UInt16)
    {address : Address} (hlocal : address.isLinkLocal = false) :
    (p.keep port .stream (some address) w).1 =
      .ok (if p.Admits w.state (address.endpoint port) then
        some ⟨port, some (w.state.created + 1)⟩ else none) := by
  change (p.claim (address.endpoint port) w).1 = _
  have hlocal' : (address.endpoint port).address.isLinkLocal = false := hlocal
  rw [p.claim_of_steady (.of_no_faults hfaults), claimResult,
    Host.listenFault?_of_no_faults hfaults]
  cases hrule : w.state.bindFault? .stream (address.endpoint port) with
  | none =>
    have hadmits : p.Admits w.state (address.endpoint port) := .inl hrule
    rw [if_pos hadmits]
    rfl
  | some errno =>
    have hnot : ¬p.Admits w.state (address.endpoint port) := by
      simp [Admits, hrule, hlocal']
    simp [hlocal', Host.bindFault?_not_unreachable hrule, if_neg hnot]

end Prober

/-- An IPv6 endpoint that is free beside a socket: once the socket is closed, nobody contends. -/
def Host.FreeBeside (h : Host) (id : SocketId) (target : Endpoint) : Prop :=
  target.family = .inet6 ∧ (h.close id).isContended target = false

instance (h : Host) (id : SocketId) (target : Endpoint) : Decidable (h.FreeBeside id target) :=
  inferInstanceAs (Decidable (_ ∧ _))

/-- Beside a listener on the IPv4 wildcard nobody contends for an endpoint of its port exactly if
the endpoint is an IPv6 one that is free beside it. -/
theorem Host.isContended_beside_wildcard {h : Host} (hb : h.Balanced) {id : SocketId}
    {port : UInt16} (hport : port ≠ 0)
    (hopen : Socket.listener id (Address.wildcard.endpoint port) ∈ h.sockets) (address : Address) :
    h.isContended (address.endpoint port) = false ↔ h.FreeBeside id (address.endpoint port) := by
  have honly : ∀ s ∈ h.sockets, s.id = id →
      ∀ f ∈ s.listensOn?, f = Address.wildcard.endpoint port := by
    intro s hs hid f hf
    obtain rfl := hb.eq_of_id_eq hs hopen hid
    exact (Option.some.inj hf).symm
  cases address with
  | v4 a =>
    have hconflict :
        ((Address.v4 a).endpoint port).conflicts (Address.wildcard.endpoint port) = true :=
      Endpoint.conflicts_iff.mpr ⟨rfl, rfl, .inr (.inl rfl)⟩
    have hcontended : h.isContended ((Address.v4 a).endpoint port) = true :=
      isContended_iff.mpr ⟨hport, _, mem_listeners_of_socket hopen rfl, hconflict⟩
    constructor
    · intro hfree
      rw [hcontended] at hfree
      cases hfree
    · rintro ⟨hfamily, -⟩
      cases hfamily
  | v6 a =>
    have hfamily : Family.inet6 ≠ Family.inet := by decide
    have hclose : (h.close id).isContended ((Address.v6 a).endpoint port) =
        h.isContended ((Address.v6 a).endpoint port) := by
      refine isContended_close fun s hs hid f hf => ?_
      rw [honly s hs hid f hf]
      exact Endpoint.conflicts_of_family_ne hfamily
    rw [FreeBeside, hclose]
    exact ⟨fun hfree => ⟨rfl, hfree⟩, fun hfree => hfree.2⟩

namespace Session

/-- What a claim of a stream port comes to in a session if a keeper is given: the session has the
keeper, and the host was left with what that holds. -/
theorem Sound.claim_given {may : Host → Endpoint → Prop} {origin : Host} {s t : Session}
    (hs : s.Sound may origin []) {fuel : Nat} {name : String} {port : UInt16}
    {address : Option Address} {keeper : Keeper}
    (hkeep : s.step fuel (.keep name port .stream address) = (.keeper (some keeper), t)) :
    ∃ world : World Host,
      (s.service.prober.keep port .stream address s.world.toLogged).1 = .ok (some keeper) ∧
      s.service.prober.Gives ((address.getD .wildcard).endpoint port) keeper ∧
      t = ({ s with world }).storeKeeper name keeper ∧
      s.world.host.Leaves world.host
        (keptAt ((address.getD .wildcard).endpoint port) (some keeper)) ∧
      t.Sound may world.host [] := by
  have hleaves := s.service.keep_leavesOpen port .stream address s.world hs.balanced
  simp only [Session.step, ask] at hkeep
  rcases hrun : s.service.keep port .stream address s.world with ⟨stop | _ | kept, world⟩ <;>
    rw [hrun] at hkeep hleaves
  · cases hkeep
  · cases hkeep
  obtain ⟨hsame, rfl⟩ : kept = keeper ∧ ({ s with world }).storeKeeper name kept = t := by
    simpa [storeKept] using hkeep
  subst hsame
  obtain ⟨l, hask⟩ := s.service.keep_ok hrun
  have hgives := s.service.keep_answers port .stream address _ _ _ hrun kept rfl
  obtain ⟨hpending, hclaims⟩ := hs.kept_pending hleaves hgives.port
  exact ⟨world, congrArg Prod.fst hask, hgives, rfl, hleaves,
    hpending.restart.storeKeeper hclaims name⟩

/-- What a claim on the whole host comes to in a session: every address that it checked was
admitted, its socket is on the IPv4 wildcard, and the session has it. -/
theorem Sound.claim_on_whole_host {may : Host → Endpoint → Prop} {origin : Host} {s t : Session}
    (hs : s.Sound may origin []) (hfaults : s.world.host.faults = []) {fuel : Nat} {name : String}
    {port : UInt16} {keeper : Keeper}
    (hkeep : s.step fuel (.keep name port .stream none) = (.keeper (some keeper), t)) :
    ∃ id, ∃ world : World Host, keeper = ⟨port, some id⟩ ∧
      t = ({ s with world }).storeKeeper name keeper ∧
      s.world.host.Leaves world.host [Socket.listener id (Address.wildcard.endpoint port)] ∧
      t.Sound may world.host [] ∧
      ∀ e ∈ s.service.prober.targets s.world.host port, s.service.prober.Admits s.world.host e := by
  obtain ⟨world, hasked, hgives, rfl, hleaves, ht⟩ := hs.claim_given hkeep
  obtain ⟨answer, hclaim, hheld, hsome⟩ :=
    s.service.prober.claimEverywhere_of_no_faults port hs.balanced hfaults
  obtain rfl : answer = some keeper := Except.ok.inj (hclaim.symm.trans hasked)
  obtain ⟨id, rfl⟩ : ∃ id, keeper = ⟨port, some id⟩ := by
    obtain ⟨_, _ | id⟩ := keeper
    · cases hheld _ rfl
    · obtain rfl := hgives.port
      exact ⟨id, rfl⟩
  exact ⟨id, world, rfl, rfl, hleaves, ht, of_decide_eq_true hsome.symm⟩

section

variable {may : Host → Endpoint → Prop} {h : Host} {world : World Host} {u : Session}
  {id : SocketId}

/-- As long as a session has the listener that a question left, it is open and as it was. -/
theorem Sound.listener_open {target : Endpoint}
    (hleaves : h.Leaves world.host [Socket.listener id target])
    (hu : u.Sound may world.host []) (hid : id ∈ u.owned) :
    Socket.listener id target ∈ u.world.host.sockets := by
  have hleft : Socket.listener id target ∈ world.host.sockets := by
    rw [hleaves.sockets]
    exact .head _
  have hgiven : id ≤ world.host.created := hleaves.balanced.id_le_created hleft
  obtain ⟨e, he⟩ := hu.listener_of_owned hid
  have hold : Socket.listener id e ∈ world.host.sockets := hu.goes.mem_sockets_of_old he hgiven
  have hsame : Socket.listener id e = Socket.listener id target :=
    hleaves.balanced.eq_of_id_eq hold hleft rfl
  exact hsame ▸ he

/-- As long as a session has the listener of a claim on the whole host, an address that was admitted
by the claim is admitted exactly if the port is free there beside the listener. -/
theorem Sound.admits_beside_claim {port : UInt16} (hport : port ≠ 0)
    (hleaves : h.Leaves world.host [Socket.listener id (Address.wildcard.endpoint port)])
    (hu : u.Sound may world.host []) (hid : id ∈ u.owned) {x : InterfaceAddress} {q : Prober}
    (hadmitted : q.Admits h (x.endpoint port)) (hlocal : x.address.isLinkLocal = false)
    (p : Prober) :
    p.Admits u.world.host (x.address.endpoint port) ↔
      u.world.host.FreeBeside id (x.address.endpoint port) := by
  have husable := (q.usable_of_admits hadmitted (by simpa using hlocal)).1
  have hscope := h.addressFault?_scope_irrelevant
    (a := (x.address.endpoint port).toScopedAddress) (b := (x.endpoint port).toScopedAddress)
    (by simp [Address.endpoint]) hlocal
  have hassigned : u.world.host.assigned = h.assigned :=
    hu.goes.assigned_eq.trans hleaves.assigned
  rw [← hscope, ← Host.addressFault?_congr hassigned] at husable
  rw [p.admits_iff_of_usable husable hlocal]
  exact Host.isContended_beside_wildcard hu.balanced hport (hu.listener_open hleaves hid) x.address

/-- Where nobody contended before a keeper was stored, nobody contends beside its listener. -/
theorem not_contended_beside_stored {s : Session} {target e : Endpoint}
    (hleaves : s.world.host.Leaves world.host [Socket.listener id target])
    (hfree : s.world.host.isContended e = false) (name : String) (keeper : Keeper) :
    ((({ s with world }).storeKeeper name keeper).world.host.close id).isContended e = false := by
  refine Host.isContended_of_subset hfree fun f hf _ => ?_
  rcases Host.mem_listeners_iff.mp hf with hforeign | ⟨a, ha, hlistens⟩
  · have hsame : (({ s with world }).dropKeeper name).world.host.foreign =
        s.world.host.foreign := (foreign_dropKeeper _ name).trans hleaves.foreign
    exact Host.mem_listeners_iff.mpr (.inl (hsame ▸ hforeign))
  · obtain ⟨hopen, hother⟩ := Host.mem_sockets_close.mp ha
    have hworld : a ∈ world.host.sockets := sockets_dropKeeper ({ s with world }) name hopen
    rw [hleaves.sockets] at hworld
    rcases List.mem_cons.mp hworld with rfl | hold
    · exact absurd rfl hother
    · exact Host.mem_listeners_of_socket hold hlistens

end

/-- A claim on the whole host without faults holds a socket. As long as the session has that socket,
each address off the link-local block that the claim checked has the port free exactly if it is an
IPv6 one that is free beside the socket: no IPv4 address has it free, and every IPv6 address has it
free on which nobody else contends. So right after the claim the port is free on every IPv6 address
that was checked without a scope. -/
theorem Reachable.reach_of_whole_host_claim {may : Host → Endpoint → Prop} {s t : Session}
    (hs : s.Reachable may) (hfaults : s.world.host.faults = []) {service : Service} {fuel : Nat}
    {name : String} {port : UInt16} (hport : port ≠ 0) {keeper : Keeper}
    (hkeep : ({ s with service }).step fuel (.keep name port .stream none) =
      (.keeper (some keeper), t)) :
    ∃ id, keeper.socket = some id ∧ id ∈ t.owned ∧
      (∀ u, Run may t u → id ∈ u.owned → ∀ p : Prober,
        ∀ x ∈ service.prober.interfaces.listed s.world.host, x.address.isLinkLocal = false →
          (p.isAvailable port .stream (some x.address) u.world.toLogged).1 =
              .ok (decide (u.world.host.FreeBeside id (x.address.endpoint port))) ∧
            (p.keep port .stream (some x.address) u.world.toLogged).1 =
              .ok (if u.world.host.FreeBeside id (x.address.endpoint port) then
                some ⟨port, some (u.world.host.created + 1)⟩ else none)) ∧
      ∀ p : Prober, ∀ x ∈ service.prober.interfaces.listed s.world.host,
        x.address.family = .inet6 → x.address.isLinkLocal = false → x.scope = 0 →
          (p.isAvailable port .stream (some x.address) t.world.toLogged).1 = .ok true := by
  obtain ⟨origin, hsound⟩ := hs.sound
  have hasked : ({ s with service }).Sound may origin [] := hsound.congr rfl rfl rfl
  obtain ⟨id, world, rfl, rfl, hleaves, ht, hadmitted⟩ := hasked.claim_on_whole_host hfaults hkeep
  have hchecked : ∀ x ∈ service.prober.interfaces.listed s.world.host,
      service.prober.Admits s.world.host (x.endpoint port) := fun x hx =>
    hadmitted _ (.tail _ (List.mem_map.mpr ⟨x, hx, rfl⟩))
  have hnofaults {u : Session} (hu : u.Sound may world.host []) :
      u.world.toLogged.state.faults = [] :=
    hu.goes.no_faults (hleaves.no_faults hfaults)
  have hverdict {u : Session} (hu : u.Sound may world.host []) (hid : id ∈ u.owned) (p : Prober)
      {x : InterfaceAddress} (hx : x ∈ service.prober.interfaces.listed s.world.host)
      (hlocal : x.address.isLinkLocal = false) :
      p.Admits u.world.toLogged.state (x.address.endpoint port) ↔
        u.world.host.FreeBeside id (x.address.endpoint port) :=
    hu.admits_beside_claim hport hleaves hid (hchecked x hx) hlocal p
  have howned : id ∈ (({ s with service, world }).storeKeeper name ⟨port, some id⟩).owned := by
    simp [storeKeeper, owned]
  refine ⟨id, rfl, howned, ?_, ?_⟩
  · intro u hrun hid p x hx hlocal
    have hu := hrun.sound ht
    have hiff := hverdict hu hid p hx hlocal
    constructor
    · rw [p.isAvailable_on_address (hnofaults hu), decide_eq_decide.mpr hiff]
    · rw [p.keep_on_address (hnofaults hu) port hlocal]
      simp only [hiff]
      rfl
  · intro p x hx hfamily hlocal hscope
    have hendpoint := InterfaceAddress.endpoint_of_no_scope hscope port
    have hfree := (service.prober.usable_of_admits (hchecked x hx) (by simpa using hlocal)).2
    rw [hendpoint] at hfree
    rw [p.isAvailable_on_address (hnofaults ht),
      decide_eq_decide.mpr (hverdict ht howned p hx hlocal)]
    refine congrArg _ (decide_eq_true ⟨hfamily, ?_⟩)
    exact not_contended_beside_stored hleaves hfree name _

/-- A claim of port 20001 on a host that has its loopback addresses reaches `127.0.0.1` only. -/
theorem reach_of_claim_on_loopback :
    ∃ t, ({ onLoopback with service := onLoopback.service }).step 0
          (.keep "claim" 20001 .stream none) = (.keeper (some ⟨20001, some 4⟩), t) ∧
      ∀ p : Prober,
        (p.isAvailable 20001 .stream (some (.v4 .loopback)) t.world.toLogged).1 = .ok false ∧
          (p.isAvailable 20001 .stream (some (.v6 .loopback)) t.world.toLogged).1 = .ok true := by
  have hreply : (({ onLoopback with service := onLoopback.service }).step 0
      (.keep "claim" 20001 .stream none)).1 = .keeper (some ⟨20001, some 4⟩) := by
    decide +kernel
  obtain ⟨t, hkeep⟩ := exists_step_eq hreply
  have hreachable : onLoopback.Reachable anywhere := ⟨onLoopback, fresh_onLoopback, .refl _⟩
  have hfaults : onLoopback.world.host.faults = [] := rfl
  have hport : (20001 : UInt16) ≠ 0 := by decide
  obtain ⟨id, -, howned, hverdict, hfree⟩ :=
    hreachable.reach_of_whole_host_claim hfaults hport hkeep
  let v4 : InterfaceAddress := ⟨"lo", .v4 .loopback, 0⟩
  let v6 : InterfaceAddress := ⟨"lo", .v6 .loopback, 0⟩
  have hv4 : v4 ∈ onLoopback.service.prober.interfaces.listed onLoopback.world.host := by
    decide +kernel
  have hv6 : v6 ∈ onLoopback.service.prober.interfaces.listed onLoopback.world.host := by
    decide +kernel
  have hlocal : v6.address.isLinkLocal = false := by decide +kernel
  refine ⟨t, hkeep, fun p => ⟨?_, hfree p v6 hv6 rfl hlocal rfl⟩⟩
  have hblocked := (hverdict t (.refl t) howned p v4 hv4 rfl).1
  have hnot : ¬t.world.host.FreeBeside id ((Address.v4 .loopback).endpoint 20001) := by
    rintro ⟨hfamily, -⟩
    cases hfamily
  rwa [decide_eq_false hnot] at hblocked

/-- A claim on the whole host does not keep the port from being claimed again on `::1`, an address
that the claim itself checked. -/
theorem ipv6_loopback_claimed_twice :
    let t := (onLoopback.step 0 (.keep "claim" 20001 .stream none)).2
    let checked : InterfaceAddress := ⟨"lo", .v6 .loopback, 0⟩
    (onLoopback.step 0 (.keep "claim" 20001 .stream none)).1 =
        .keeper (some ⟨20001, some 4⟩) ∧
      4 ∈ t.owned ∧ checked ∈ t.service.prober.interfaces.listed t.world.host ∧
      checked.address.isLinkLocal = false ∧
      (t.step 0 (.available 20001 .stream (some checked.address))).1 = .available true ∧
      (t.step 0 (.keep "again" 20001 .stream (some checked.address))).1 =
        .keeper (some ⟨20001, some 5⟩) := by
  decide +kernel

end Session

end PortWarden
