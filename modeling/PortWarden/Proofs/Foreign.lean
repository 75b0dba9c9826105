import PortWarden.Proofs.Reservation

/-!
# Listeners of other programs

A port on which another program listens is not free on the whole host. The listener contends with
the wildcard or with one of the interface addresses, if there is one for every address of the host.
The check of that address then fails, and it counts unless errors are waived there.
-/

namespace PortWarden

/-- A source that has every address assigned to the host, with its scope. -/
def InterfaceSource.Covers (source : InterfaceSource) (h : Host) : Prop :=
  ∀ a ∈ h.assigned, ∃ i ∈ source.listed h, i.address = a.address ∧ i.scope = a.scope

instance (source : InterfaceSource) (h : Host) : Decidable (source.Covers h) :=
  inferInstanceAs (Decidable (∀ a ∈ h.assigned, _))

namespace InterfaceAddress

/-- Ports are asked about as they are. -/
@[simp] theorem endpoint_port (i : InterfaceAddress) (port : UInt16) :
    (i.endpoint port).port = port := by
  unfold endpoint
  split <;> rfl

/-- A port on an interface address conflicts with whoever listens on the same IPv6 address. -/
theorem endpoint_conflicts_of_same {i : InterfaceAddress} {e : Endpoint}
    (haddress : i.address = e.address) (hscope : i.scope = e.scope) (hfamily : e.family = .inet6) :
    (i.endpoint e.port).conflicts e = true := by
  cases hv6 : i.address with
  | v4 a =>
    rw [Endpoint.family, ← haddress, hv6] at hfamily
    cases hfamily
  | v6 a =>
    have hsame : (i.endpoint e.port).toScopedAddress = e.toScopedAddress := by
      rw [endpoint, hv6]
      exact congrArg₂ ScopedAddress.mk (hv6.symm.trans haddress) hscope
    have hfamilies : (i.endpoint e.port).family = e.family := by
      rw [Endpoint.family, hsame]
      rfl
    exact Endpoint.conflicts_iff.mpr ⟨hfamilies, i.endpoint_port e.port, .inr (.inr hsame)⟩

/-- A port on an interface address conflicts with whoever listens on all addresses of its family. -/
theorem endpoint_conflicts_of_unspecified {i : InterfaceAddress} {e : Endpoint}
    (hfamily : i.address.family = e.family) (hunspecified : e.address.isUnspecified = true) :
    (i.endpoint e.port).conflicts e = true := by
  refine Endpoint.conflicts_iff.mpr ⟨?_, i.endpoint_port e.port, .inr (.inl hunspecified)⟩
  rw [Endpoint.family, i.endpoint_address, hfamily]

end InterfaceAddress

/-- The wildcard conflicts with every IPv4 listener. -/
theorem Endpoint.wildcard_conflicts {e : Endpoint} (hfamily : e.family = .inet) :
    (Address.wildcard.endpoint e.port).conflicts e = true :=
  conflicts_iff.mpr ⟨hfamily.symm, rfl, .inl rfl⟩

namespace Prober

variable (p : Prober)

/-- Errors on an address count, other than on a link-local one if the options say so. -/
def Heeds (address : Address) : Prop :=
  address.isLinkLocal = true → p.options.linkLocalWorkaround = false

instance (address : Address) : Decidable (p.Heeds address) :=
  inferInstanceAs (Decidable (_ → _))

/-- A listener that is seen by a check on the whole host: it is on an address of the host on which
errors count, or on all addresses of a family in which there is such an interface address. -/
def Notices (h : Host) (e : Endpoint) : Prop :=
  e.toScopedAddress ∈ h.assigned ∧ p.Heeds e.address ∨
    e.address.isUnspecified = true ∧
      ∃ i ∈ p.interfaces.listed h, i.address.family = e.family ∧ p.Heeds i.address

instance (h : Host) (e : Endpoint) : Decidable (p.Notices h e) :=
  inferInstanceAs (Decidable (_ ∨ _))

variable {p} {h : Host}

/-- An endpoint for which somebody contends is not admitted where errors count. -/
theorem not_admits_of_contended {target : Endpoint} (hheeds : p.Heeds target.address)
    (hcontended : h.isContended target = true) : ¬p.Admits h target := by
  rintro (hrule | ⟨hlocal, hworkaround⟩)
  · have hfree := (Host.bindFault?_stream_eq_none_iff.mp hrule).2
    rw [hcontended] at hfree
    cases hfree
  · rw [hheeds hlocal] at hworkaround
    cases hworkaround

/-- A listener that is seen conflicts with an endpoint that has to be free. -/
theorem Notices.exists_target {e : Endpoint} (hnotices : p.Notices h e)
    (hcovers : p.interfaces.Covers h) :
    ∃ target ∈ p.targets h e.port, target.conflicts e = true ∧ p.Heeds target.address := by
  have hlisted {i : InterfaceAddress} (hi : i ∈ p.interfaces.listed h) :
      i.endpoint e.port ∈ p.targets h e.port :=
    .tail _ (List.mem_map_of_mem hi (f := (·.endpoint e.port)))
  cases hfamily : e.family with
  | inet =>
    have hheeds : p.Heeds Address.wildcard := by rintro ⟨⟩
    exact ⟨_, .head _, Endpoint.wildcard_conflicts hfamily, hheeds⟩
  | inet6 =>
    rcases hnotices with ⟨hassigned, hheeds⟩ | ⟨hunspecified, i, hi, hsame, hheeds⟩
    · obtain ⟨i, hi, haddress, hscope⟩ := hcovers _ hassigned
      refine ⟨_, hlisted hi, i.endpoint_conflicts_of_same haddress hscope hfamily, ?_⟩
      rw [i.endpoint_address, haddress]
      exact hheeds
    · refine ⟨_, hlisted hi, i.endpoint_conflicts_of_unspecified hsame hunspecified, ?_⟩
      rw [i.endpoint_address]
      exact hheeds

/-- A listener that is seen keeps some endpoint from being admitted that has to be free. -/
theorem Notices.not_admitted {e : Endpoint} (hnotices : p.Notices h e)
    (hcovers : p.interfaces.Covers h) (hlistens : e ∈ h.listeners) (hport : e.port ≠ 0) :
    ¬∀ target ∈ p.targets h e.port, p.Admits h target := by
  intro hadmitted
  obtain ⟨target, htarget, hconflict, hheeds⟩ := hnotices.exists_target hcovers
  have hsame : target.port = e.port := (Endpoint.conflicts_iff.mp hconflict).2.1
  have hcontended : h.isContended target = true :=
    Host.isContended_iff.mpr ⟨hsame ▸ hport, e, hlistens, hconflict⟩
  exact not_admits_of_contended hheeds hcontended (hadmitted target htarget)

end Prober

namespace Session

variable {may : Host → Endpoint → Prop} {s : Session}

/-- A port on which another program listens is in use and cannot be claimed, whatever has happened
in a session. -/
theorem Reachable.foreign_listener_noticed (hs : s.Reachable may)
    (hfaults : s.world.host.faults = []) {p : Prober} (hcovers : p.interfaces.Covers s.world.host)
    {e : Endpoint} (hforeign : e ∈ s.world.host.foreign) (hport : e.port ≠ 0)
    (hnotices : p.Notices s.world.host e) :
    (p.isAvailable e.port .stream none s.world.toLogged).1 = .ok false ∧
      (p.keep e.port .stream none s.world.toLogged).1 = .ok none := by
  obtain ⟨origin, hsound⟩ := hs.sound
  have hlistens : e ∈ s.world.host.listeners := Host.mem_listeners_iff.mpr (.inl hforeign)
  have hnot := hnotices.not_admitted hcovers hlistens hport
  obtain ⟨kept, hclaim, -, hsome⟩ :=
    p.claimEverywhere_of_no_faults e.port hsound.balanced hfaults
  obtain rfl : kept = none := by
    rw [← Option.isNone_iff_eq_none, ← Option.isSome_eq_false_iff]
    exact hsome.trans (decide_eq_false hnot)
  refine ⟨?_, hclaim⟩
  change (Prober.released (p.claimEverywhere e.port) s.world.toLogged).1 = _
  rw [Prober.released_fst, hclaim]
  rfl

/-- A session in which nothing has happened yet, on a host that has its loopback addresses and where
another program listens. -/
def besideListener (e : Endpoint) : Session :=
  { onLoopback with
    world := { onLoopback.world with
      state := { onLoopback.world.state with foreign := [e] } } }

/-- Port 20001 is in use on the whole host if another program listens there on `::1`, an address
that a claim on the wildcard alone would leave out. -/
theorem ipv6_listener_noticed_on_loopback :
    let e : Endpoint := (Address.v6 .loopback).endpoint 20001
    let s := besideListener e
    let p : Prober := {}
    s.world.host.faults = [] ∧ p.interfaces.Covers s.world.host ∧ e ∈ s.world.host.foreign ∧
      e.port ≠ 0 ∧ p.Notices s.world.host e ∧
      (p.isAvailable e.port .stream none s.world.toLogged).1 = .ok false ∧
      (p.keep e.port .stream none s.world.toLogged).1 = .ok none := by
  intro e s p
  have hfresh : s.Fresh := by constructor <;> rfl
  have hreachable : s.Reachable anywhere := ⟨s, hfresh, .refl s⟩
  have hcovers : p.interfaces.Covers s.world.host := by decide +kernel
  have hforeign : e ∈ s.world.host.foreign := .head _
  have hport : e.port ≠ 0 := by decide
  have hnotices : p.Notices s.world.host e := by decide +kernel
  exact ⟨rfl, hcovers, hforeign, hport, hnotices,
    hreachable.foreign_listener_noticed rfl hcovers hforeign hport hnotices⟩

/-- A session in which nothing has happened yet, on a host whose only address is a link-local one,
where another program listens on port 20001. -/
def besideLinkLocalListener : Session where
  service := { config := {}, prober := {}, generator := 0 }
  world :=
    let address : ScopedAddress := ⟨.v6 ⟨#v[0xfe80, 0, 0, 0, 0, 0, 0, 5]⟩, 3⟩
    { state := {
        assigned := [address]
        interfaces := [⟨"eth0", .internet address⟩]
        foreign := [⟨address, 20001⟩] }
      randomness := { entropy := .cycle [] } }

/-- On a link-local address another program's listener is not seen by default, although its address
is among the interface addresses: the port is free on the whole host, and can be claimed. -/
theorem link_local_listener_unnoticed :
    let s := besideLinkLocalListener
    let p : Prober := {}
    s.Fresh ∧ s.world.host.faults = [] ∧ p.interfaces.Covers s.world.host ∧
      (∃ e ∈ s.world.host.foreign, e.port = 20001 ∧ e.toScopedAddress ∈ s.world.host.assigned) ∧
      (p.isAvailable 20001 .stream none s.world.toLogged).1 = .ok true ∧
      (p.keep 20001 .stream none s.world.toLogged).1 = .ok (some ⟨20001, some 3⟩) := by
  refine ⟨by constructor <;> rfl, ?_⟩
  decide +kernel

end Session

end PortWarden
