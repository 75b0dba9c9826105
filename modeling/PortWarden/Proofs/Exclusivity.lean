import PortWarden.Proofs.Run
import Mathlib.Data.List.Pairwise

/-!
# Exclusive listeners

A listener is opened only where nobody contends, and closing one gets in nobody's way; so no two
listeners ever conflict, however the questions between them end. Other programs are held to the same
rule here. Listeners on port 0 are left out, since the host gives each of them a port of its own.
-/

namespace PortWarden

namespace Host

/-- No two listeners get in each other's way. -/
structure Exclusive (h : Host) : Prop where
  /-- The program's own listeners do not conflict. -/
  own : ∀ a ∈ h.sockets, ∀ b ∈ h.sockets, a ≠ b → ∀ e ∈ a.listensOn?, ∀ f ∈ b.listensOn?,
    e.port ≠ 0 → e.conflicts f = false
  /-- None of them conflicts with a listener of another program. -/
  foreign : ∀ a ∈ h.sockets, ∀ e ∈ a.listensOn?, e.port ≠ 0 → ∀ f ∈ h.foreign,
    e.conflicts f = false

namespace Exclusive

variable {h h' : Host} (hexclusive : h.Exclusive)
include hexclusive

/-- A question leaves a listener only where nobody contends. -/
theorem asks {left : List Socket} (hleaves : h.Leaves h' left) : h'.Exclusive := by
  have hnew : ∀ a ∈ left, ∀ e ∈ a.listensOn?, h.isContended e = false := fun a ha e he =>
    hleaves.uncontended a ha e (Socket.bound_of_listensOn? he)
  constructor
  · intro a ha b hb hne e he f hf
    rw [hleaves.sockets] at ha hb
    rcases List.mem_append.mp ha with ha | ha <;> rcases List.mem_append.mp hb with hb | hb
    · -- A question leaves a single socket, so two different ones are not both new.
      exact absurd (hleaves.single a ha b hb) hne
    · exact conflicts_of_not_contended (hnew a ha e he) (mem_listeners_of_socket hb hf)
    · refine Endpoint.conflicts_eq_false_comm ?_
      exact conflicts_of_not_contended (hnew b hb f hf) (mem_listeners_of_socket ha he)
    · exact hexclusive.own a ha b hb hne e he f hf
  · intro a ha e he hport f hf
    rw [hleaves.sockets] at ha
    rw [hleaves.foreign] at hf
    rcases List.mem_append.mp ha with ha | ha
    · exact conflicts_of_not_contended (hnew a ha e he) (List.mem_append_left _ hf) hport
    · exact hexclusive.foreign a ha e he hport f hf

/-- Closing a socket makes no conflict. -/
theorem closes (id : SocketId) : (h.close id).Exclusive := by
  have hold : ∀ a ∈ (h.close id).sockets, a ∈ h.sockets := fun a ha => (mem_sockets_close.mp ha).1
  constructor
  · intro a ha b hb
    exact hexclusive.own a (hold a ha) b (hold b hb)
  · intro a ha
    exact hexclusive.foreign a (hold a ha)

/-- Another program that listens where it does not contend makes no conflict. -/
theorem listens {target : Endpoint} (hfree : h.isContended target = false) :
    ({ h with foreign := h.foreign ++ [target] }).Exclusive where
  own := hexclusive.own
  foreign a ha e he hport f hf := by
    rcases List.mem_append.mp hf with hf | hf
    · exact hexclusive.foreign a ha e he hport f hf
    · obtain rfl := List.mem_singleton.mp hf
      refine Endpoint.conflicts_eq_false_comm ?_ hport
      exact conflicts_of_not_contended hfree (mem_listeners_of_socket (h := h) ha he)

/-- Another program that stops listening makes no conflict. -/
theorem stops (target : Endpoint) :
    ({ h with foreign := h.foreign.filter (· != target) }).Exclusive where
  own := hexclusive.own
  foreign a ha e he hport f hf := hexclusive.foreign a ha e he hport f (List.mem_filter.mp hf).1

end Exclusive

/-- Listeners stay exclusive while other programs are held to the same rule. -/
theorem Goes.exclusive {h h' : Host} (hgoes : Goes whereFree h h') (hexclusive : h.Exclusive) :
    h'.Exclusive := by
  induction hgoes with
  | refl => exact hexclusive
  | asks _ hleaves ih => exact ih.asks hleaves
  | closes _ _ ih => exact ih.closes _
  | listens _ hfree ih => exact ih.listens hfree
  | stops target _ ih => exact ih.stops target

end Host

/-- A host on which the program has no socket has no conflict of its own. -/
theorem Host.Exclusive.of_no_sockets {h : Host} (hsockets : h.sockets = []) : h.Exclusive := by
  constructor <;> simp [hsockets]

namespace Session

/-- The owners in a session do not get in each other's way. -/
structure Exclusive (s : Session) : Prop extends s.world.host.Exclusive where
  /-- Whoever owns a socket listens on it. -/
  listening : ∀ id ∈ s.owned, ∃ e, Socket.listener id e ∈ s.world.host.sockets
  /-- Two keepers of one port hold it in different families or on different addresses, none of which
  stands for all of them. -/
  keepers : ∀ a ∈ s.keepers, ∀ b ∈ s.keepers, a ≠ b → ∀ i ∈ a.2.socket, ∀ j ∈ b.2.socket,
    a.2.port = b.2.port → a.2.port ≠ 0 →
      ∃ e f, Socket.listener i e ∈ s.world.host.sockets ∧
        Socket.listener j f ∈ s.world.host.sockets ∧ e.port = a.2.port ∧ f.port = b.2.port ∧
        (e.family = f.family → e.address.isUnspecified = false ∧
          f.address.isUnspecified = false ∧ e.toScopedAddress ≠ f.toScopedAddress)

namespace Sound

variable {may : Host → Endpoint → Prop} {origin : Host} {s : Session}

/-- An owned socket is open, and listens. -/
theorem listener_of_owned (hs : s.Sound may origin []) {id : SocketId} (hid : id ∈ s.owned) :
    ∃ e, Socket.listener id e ∈ s.world.host.sockets := by
  obtain ⟨socket, hsocket, rfl⟩ := List.mem_map.mp (hs.owned.subset hid)
  obtain ⟨target, heq⟩ := hs.listening socket hsocket
  exact ⟨target, heq ▸ hsocket⟩

/-- Two keepers never share a socket. -/
theorem socket_ne (hs : s.Sound may origin []) {a b : String × Keeper} (ha : a ∈ s.keepers)
    (hb : b ∈ s.keepers) (hne : a ≠ b) {i j : SocketId} (hi : i ∈ a.2.socket)
    (hj : j ∈ b.2.socket) : i ≠ j := by
  have howned : s.owned.Nodup := hs.owned.nodup_iff.mpr hs.balanced.nodup_ids
  have hkeepers : (s.keepers.filterMap (·.2.socket)).Nodup := (List.nodup_append.mp howned).1
  have hsymm : Std.Symm fun a b : String × Keeper =>
      ∀ i, a.2.socket = some i → ∀ j, b.2.socket = some j → i ≠ j :=
    ⟨fun _ _ h j hj i hi => (h i hi j hj).symm⟩
  exact (List.pairwise_filterMap.mp hkeepers).forall ha hb hne i hi j hj

end Sound

/-- Whatever is asked in whatever order, and whichever calls fail on the way, no two owners in a
session get in each other's way. -/
theorem Reachable.owners_exclusive {s : Session} (hs : s.Reachable whereFree) : s.Exclusive := by
  obtain ⟨start, hstart, hrun⟩ := hs
  have hsound := hrun.sound hstart.sound
  have hexclusive := hsound.goes.exclusive (.of_no_sockets hstart.sockets)
  refine ⟨hexclusive, fun id hid => hsound.listener_of_owned hid, ?_⟩
  intro a ha b hb hne i hi j hj hsame hport
  obtain ⟨e, heport, he⟩ := hsound.claims a ha i hi
  obtain ⟨f, hfport, hf⟩ := hsound.claims b hb j hj
  have hsockets : Socket.listener i e ≠ Socket.listener j f := fun heq =>
    hsound.socket_ne ha hb hne hi hj (congrArg Socket.id heq)
  have hconflict : e.conflicts f = false :=
    hexclusive.own _ he _ hf hsockets e rfl f rfl (heport ▸ hport)
  refine ⟨e, f, he, hf, heport, hfport, fun hfamily => ?_⟩
  have hports : e.port = f.port := by rw [heport, hfport, hsame]
  have hnone : ¬(e.address.isUnspecified = true ∨ f.address.isUnspecified = true ∨
      e.toScopedAddress = f.toScopedAddress) := fun haddress =>
    Bool.eq_false_iff.mp hconflict (Endpoint.conflicts_iff.mpr ⟨hfamily, hports, haddress⟩)
  simpa only [not_or, Bool.not_eq_true] using hnone

/-- Two keepers of one port on the two loopback addresses do not get in each other's way. -/
theorem owners_exclusive_on_loopback :
    let first := (onLoopback.step 0 (.keep "v4" 20001 .stream (some (.v4 .loopback)))).2
    let second := (first.step 0 (.keep "v6" 20001 .stream (some (.v6 .loopback)))).2
    second.keepers = [("v6", ⟨20001, some 2⟩), ("v4", ⟨20001, some 1⟩)] ∧ second.Exclusive := by
  refine ⟨by decide, Reachable.owners_exclusive ⟨onLoopback, fresh_onLoopback, ?_⟩⟩
  have hfirst : Run whereFree onLoopback
      (onLoopback.step 0 (.keep "v4" 20001 .stream (some (.v4 .loopback)))).2 :=
    (Run.refl onLoopback).step onLoopback.service 0 trivial
  exact hfirst.step onLoopback.service 0 trivial

end Session

end PortWarden
