import PortWarden.Proofs.Answering
import PortWarden.Proofs.Finding
import PortWarden.Proofs.Permanence
import PortWarden.Proofs.Run

/-!
# Ports that were found are free

On a host whose faults are permanent, what a check comes to depends on what no check changes. So the
ports that a search tries in vain leave no trace, and a port that it gives is found free by the next
check, and can be kept.
-/

namespace PortWarden

namespace Prober

variable (p : Prober)

/-- What a check of a port comes to on a steady host. -/
def verdictOf (h : Host) (port : UInt16) (protocol : Protocol) (address : Option Address) :
    Except Failure Bool :=
  match protocol with
  | .stream => p.verdict h port address
  | .multicast => p.verdictInGroup h port address

/-- On a steady host it is known beforehand what a check of a port comes to. -/
theorem isAvailable_fst_of_steady (port : UInt16) (protocol : Protocol) (address : Option Address)
    {w : Logged Host} (hb : w.state.Balanced) (hs : w.state.Steady) :
    (p.isAvailable port protocol address w).1 = p.verdictOf w.state port protocol address := by
  cases protocol with
  | stream => exact p.isAvailable_of_steady port address hb hs
  | multicast => exact p.isFreeInGroup_of_steady port address hs

end Prober

/-- A host after questions that have left nothing open, in the same surroundings. -/
structure Host.Undisturbed (h h' : Host) : Prop extends h.Leaves h' [] where
  /-- The same answer in groups. -/
  responders : h'.responders = h.responders

namespace Host.Undisturbed

variable {h h' : Host}

/-- A check comes to the same on a steady host that was not disturbed. -/
theorem verdictOf_eq (hundisturbed : h.Undisturbed h') (hs : h.Steady) (p : Prober) (port : UInt16)
    (protocol : Protocol) (address : Option Address) :
    p.verdictOf h' port protocol address = p.verdictOf h port protocol address := by
  cases protocol with
  | stream => exact p.verdict_congr (hundisturbed.alike hs) port address
  | multicast =>
    exact p.verdictInGroup_congr (hundisturbed.faults hs) hundisturbed.responders port address

/-- The next check is answered as the last one was. -/
theorem isAvailable_eq {l l' : Logged Host} (hundisturbed : l.state.Undisturbed l'.state)
    (hb : l.state.Balanced) (hs : l.state.Steady) (p : Prober) (port : UInt16)
    (protocol : Protocol) (address : Option Address) :
    (p.isAvailable port protocol address l').1 = (p.isAvailable port protocol address l).1 := by
  have hs' : l'.state.Steady := hs.congr (hundisturbed.faults hs)
  rw [p.isAvailable_fst_of_steady port protocol address hundisturbed.balanced hs',
    p.isAvailable_fst_of_steady port protocol address hb hs, hundisturbed.verdictOf_eq hs]

end Host.Undisturbed

/-- A check disturbs no host. -/
theorem Prober.isAvailable_undisturbed (p : Prober) (port : UInt16) (protocol : Protocol)
    (address : Option Address) {l : Logged Host} (hb : l.state.Balanced) :
    l.state.Undisturbed (p.isAvailable port protocol address l).2.state where
  toLeaves := (p.isAvailable_leavesOpen port protocol address).leaves_nothing hb
  responders := (p.isAvailable_asksOnly _ port protocol address l rfl).responders

/-- If the last check found a port free, so does the next one. -/
theorem Prober.Concludes.isAvailable {p : Prober} {range : PortRange} {protocol : Protocol}
    {address : Option Address} {port : UInt16} {h : Host} {l : Logged Host}
    (hends : p.Concludes range protocol address (p.isAvailable port protocol address) true h
      l.state) (hb : h.Balanced) (hs : h.Steady) :
    (p.isAvailable port protocol address l).1 = .ok true := by
  obtain ⟨m, m', hbefore, -, hlast, hstate⟩ := hends
  have hleaves := hbefore hb
  have hm : m.state.Steady := hs.congr (hleaves.faults hs)
  have hundisturbed := p.isAvailable_undisturbed port protocol address hleaves.balanced
  rw [hlast, hstate] at hundisturbed
  rw [hundisturbed.isAvailable_eq hleaves.balanced hm, hlast]

/-- What a question comes to on the whole state is what it comes to on the host. -/
theorem Probing.onWorld_fst {σ α : Type} (question : Probing σ α) (w : World σ) :
    (question.onWorld w).1 = (question w.toLogged).1.mapError .failure := by
  simp only [onWorld]
  rcases question w.toLogged with ⟨failure | a, l⟩ <;> rfl

/-- Two states of the world with the same open sockets, in which every question about a port is
answered alike. -/
structure World.AnswersAlike (w w' : World Host) : Prop where
  /-- The same sockets are open. -/
  sockets : w'.host.sockets = w.host.sockets
  /-- A check comes to the same, whoever makes it. -/
  available : ∀ (service : Service) (port : UInt16) (protocol : Protocol)
    (address : Option Address),
    (service.isAvailable port protocol address w').1 =
      (service.isAvailable port protocol address w).1
  /-- A port can be kept in the one exactly if it can be kept in the other. -/
  keep : ∀ (service : Service) (port : UInt16) (protocol : Protocol) (address : Option Address),
    (service.keep port protocol address w').1.map (·.isSome) =
      (service.keep port protocol address w).1.map (·.isSome)

/-- Where a port may be kept, it is free. -/
theorem Service.keep_fst (service : Service) (port : UInt16) (address : Option Address)
    (w : World Host) :
    (service.keep port .stream address w).1.map (·.isSome) =
      (service.isAvailable port .stream address w).1 := by
  rw [keep, isAvailable, Probing.onWorld_fst, Probing.onWorld_fst,
    Prober.isAvailable_fst_eq_keep]
  rcases (service.prober.keep port .stream address w.toLogged).1 with failure | kept <;> rfl

/-- Questions that do not disturb a steady host are answered alike afterwards. -/
theorem Host.Undisturbed.answersAlike {w w' : World Host}
    (hundisturbed : w.host.Undisturbed w'.host) (hb : w.host.Balanced) (hs : w.host.Steady) :
    w.AnswersAlike w' := by
  have havailable (service : Service) (port : UInt16) (protocol : Protocol)
      (address : Option Address) :
      (service.isAvailable port protocol address w').1 =
        (service.isAvailable port protocol address w).1 := by
    have hsame : (service.prober.isAvailable port protocol address w'.toLogged).1 =
        (service.prober.isAvailable port protocol address w.toLogged).1 :=
      isAvailable_eq hundisturbed hb hs service.prober port protocol address
    rw [Service.isAvailable, Probing.onWorld_fst, Probing.onWorld_fst, hsame]
  refine ⟨hundisturbed.sockets, havailable, fun service port protocol address => ?_⟩
  cases protocol with
  | stream =>
    rw [service.keep_fst, service.keep_fst]
    exact havailable service port .stream address
  | multicast => rfl

/-- A port that a service has found is free and stays so, and can be kept if it is a stream port. -/
structure Service.StillFree (service : Service) (port : UInt16) (protocol : Protocol)
    (address : Option Address) (world : World Host) : Prop where
  /-- The next check finds it free. -/
  available : (service.isAvailable port protocol address world).1 = .ok true
  /-- A keeper of it is given. -/
  kept : protocol = .stream → ∃ keeper,
    (service.keep port protocol address world).1 = .ok (some keeper) ∧ keeper.port = port

/-- A search that ended with a check leaves the port free that it found. -/
theorem Prober.Concludes.stillFree {service : Service} {range : PortRange} {protocol : Protocol}
    {address : Option Address} {port : UInt16} {h : Host} {world : World Host}
    (hends : service.prober.Concludes range protocol address
      (service.prober.isAvailable port protocol address) true h world.host)
    (hb : h.Balanced) (hs : h.Steady) : service.StillFree port protocol address world := by
  have hagain := hends.isAvailable (l := world.toLogged) hb hs
  have havailable : (service.isAvailable port protocol address world).1 = .ok true := by
    rw [Service.isAvailable, Probing.onWorld_fst, hagain]
    rfl
  refine ⟨havailable, ?_⟩
  rintro rfl
  have hkept := service.keep_fst port address world
  rw [havailable] at hkept
  rcases hrun : service.keep port .stream address world with ⟨stop | _ | keeper, world'⟩ <;>
    rw [hrun] at hkept
  · cases hkept
  · cases hkept
  · exact ⟨keeper, rfl, (service.keep_answers port .stream address _ _ _ hrun keeper rfl).port⟩

namespace Session

/-- What can be said of the ports that a service finds from a session on. -/
structure FindsFree (s : Session) (service : Service) (fuel : Nat) : Prop where
  /-- A port that is picked from a configured range lies in that and is free. -/
  random : ∀ {protocol address membership port world},
    service.randomPort fuel protocol address membership s.world = (.ok port, world) →
      (service.config.rangeFor membership).contains port = true ∧
        service.StillFree port protocol address world
  /-- A port that is picked from a given range lies in that and is free on the configured
  address. -/
  inRange : ∀ {lower upper protocol port world},
    service.randomPortInRange fuel lower upper protocol s.world = (.ok (some port), world) →
      lower ≤ port ∧ port ≤ upper ∧
        (service.isAvailableByDefault port protocol world).1 = .ok true
  /-- The ports tried leave no trace, whether one is found in the end or not. -/
  random_alike : ∀ protocol address membership,
    s.world.AnswersAlike (service.randomPort fuel protocol address membership s.world).2
  /-- Nor do those that are tried in a given range. -/
  inRange_alike : ∀ lower upper protocol,
    s.world.AnswersAlike (service.randomPortInRange fuel lower upper protocol s.world).2

/-- In whatever state a session on a steady host is, a port that a service finds is free when it is
asked about next, however many ports were tried in vain before. -/
theorem Reachable.finds_free {may : Host → Endpoint → Prop} {s : Session} (hs : s.Reachable may)
    (hsteady : s.world.host.Steady) (service : Service) (fuel : Nat) :
    s.FindsFree service fuel := by
  obtain ⟨origin, hsound⟩ := hs.sound
  have hb := hsound.balanced
  constructor
  case random =>
    intro protocol address membership port world hrun
    obtain ⟨hport, hends⟩ := Allocator.randomPort_concludes service.prober service.generator
      service.config fuel hrun
    exact ⟨hport, hends.stillFree hb hsteady⟩
  case inRange =>
    intro lower upper protocol port world hrun
    obtain ⟨hport, hends⟩ := Allocator.randomPortInRange_concludes service.prober service.generator
      service.config fuel hrun
    simp only [PortRange.contains, Bool.and_eq_true, decide_eq_true_eq] at hport
    exact ⟨hport.1, hport.2, (hends.stillFree hb hsteady).available⟩
  case random_alike =>
    intro protocol address membership
    have hleaves := Allocator.randomPort_leavesOpen service.prober service.generator service.config
      fuel protocol address membership
    have hasked := Allocator.randomPort_asksOnly service.prober service.generator service.config
      fuel _ protocol address membership s.world rfl
    have hundisturbed : s.world.host.Undisturbed _ := ⟨hleaves.leaves_nothing hb, hasked.responders⟩
    exact hundisturbed.answersAlike hb hsteady
  case inRange_alike =>
    intro lower upper protocol
    have hleaves := Allocator.randomPortInRange_leavesOpen service.prober service.generator
      service.config fuel lower upper protocol (service.config.addressFor protocol)
    have hasked := Allocator.randomPortInRange_asksOnly service.prober service.generator
      service.config fuel _ protocol (service.config.addressFor protocol) lower upper s.world rfl
    have hundisturbed : s.world.host.Undisturbed _ := ⟨hleaves.leaves_nothing hb, hasked.responders⟩
    exact hundisturbed.answersAlike hb hsteady

/-- Where another program listens on port 20001 of `127.0.0.1` and nobody may have port 22500, a
search that draws both before port 25000 finds that one, which is free and can be kept. -/
theorem finds_free_on_loopback :
    let fault : Fault := { operation := .bind, errno := .accessDenied, port := some 22500 }
    let s : Session := { onLoopback with
      world := {
        state := { onLoopback.world.state with
          foreign := [⟨⟨.v4 .loopback, 0⟩, 20001⟩]
          faults := [fault] }
        randomness := { entropy := .cycle [0, 0x40000000, 0x80000000] } } }
    ∃ world, s.service.randomPort 3 .stream none false s.world = (.ok 25000, world) ∧
      s.service.StillFree 25000 .stream none world ∧ s.world.AnswersAlike world := by
  intro fault s
  have hfresh : s.Fresh := by constructor <;> rfl
  have hreachable : s.Reachable anywhere := ⟨s, hfresh, .refl s⟩
  have hsteady : s.world.host.Steady := by
    intro f hf
    obtain rfl := List.mem_singleton.mp hf
    exact ⟨rfl, rfl⟩
  have hfinds := hreachable.finds_free hsteady s.service 3
  have hport : (s.service.randomPort 3 .stream none false s.world).1 = .ok 25000 := by
    decide +kernel
  have halike := hfinds.random_alike .stream none false
  rcases hrun : s.service.randomPort 3 .stream none false s.world with ⟨result, world⟩
  rw [hrun] at hport halike
  obtain rfl : result = .ok 25000 := hport
  exact ⟨world, rfl, (hfinds.random hrun).2, halike⟩

end Session

end PortWarden
