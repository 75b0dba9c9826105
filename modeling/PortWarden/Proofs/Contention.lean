import PortWarden.Host.SystemCall

/-!
# Contention for ports

The rule by which a listener may be bound: its address has to be usable, and nobody may listen on
an endpoint that conflicts with it. Whether two endpoints conflict does not depend on their order,
but conflicts do not carry over from one endpoint to the next, since an unspecified address
conflicts with addresses that leave each other alone.
-/

namespace PortWarden

namespace Endpoint

/-- Two endpoints conflict if they share family and port, and an unspecified address or the address
and its scope. -/
theorem conflicts_iff {a b : Endpoint} :
    a.conflicts b = true ↔ a.family = b.family ∧ a.port = b.port ∧
      (a.address.isUnspecified = true ∨ b.address.isUnspecified = true ∨
        a.toScopedAddress = b.toScopedAddress) := by
  simp only [conflicts, Bool.and_eq_true, Bool.or_eq_true, beq_iff_eq, and_assoc, or_assoc]

private theorem conflicts_symm {a b : Endpoint} (h : a.conflicts b = true) :
    b.conflicts a = true := by
  obtain ⟨hfamily, hport, haddress⟩ := conflicts_iff.mp h
  refine conflicts_iff.mpr ⟨hfamily.symm, hport.symm, ?_⟩
  rcases haddress with hunspecified | hunspecified | haddress
  · exact .inr (.inl hunspecified)
  · exact .inl hunspecified
  · exact .inr (.inr haddress.symm)

/-- Neither of two endpoints has a better right than the other. -/
theorem conflicts_comm (a b : Endpoint) : a.conflicts b = b.conflicts a :=
  Bool.eq_iff_iff.mpr ⟨conflicts_symm, conflicts_symm⟩

/-- The families never contend with each other. -/
theorem conflicts_of_family_ne {a b : Endpoint} (h : a.family ≠ b.family) :
    a.conflicts b = false :=
  Bool.eq_false_iff.mpr fun hconflict => h (conflicts_iff.mp hconflict).1

/-- Two endpoints do not conflict whichever of them is asked for. -/
theorem conflicts_eq_false_comm {a b : Endpoint}
    (h : b.port ≠ 0 → b.conflicts a = false) (hport : a.port ≠ 0) : a.conflicts b = false := by
  by_cases hsame : a.port = b.port
  · rw [conflicts_comm]
    exact h (hsame ▸ hport)
  · exact Bool.eq_false_iff.mpr fun hconflict => hsame (conflicts_iff.mp hconflict).2.1

end Endpoint

/-- What a socket listens on, if it does. -/
def Socket.listensOn? (s : Socket) : Option Endpoint := if s.listening then s.bound else none

/-- A socket is bound to what it listens on. -/
theorem Socket.bound_of_listensOn? {s : Socket} {e : Endpoint} (he : e ∈ s.listensOn?) :
    s.bound = some e := by
  unfold listensOn? at he
  split at he
  · exact he
  · cases he

namespace Host

/-- A listener contends if it asks for a port other than 0 on which somebody listens on a
conflicting endpoint. -/
theorem isContended_iff {h : Host} {target : Endpoint} :
    h.isContended target = true ↔
      target.port ≠ 0 ∧ ∃ e ∈ h.listeners, target.conflicts e = true := by
  simp [isContended]

/-- A listener that does not contend conflicts with nobody, unless it asks for port 0. -/
theorem isContended_eq_false_iff {h : Host} {target : Endpoint} :
    h.isContended target = false ↔
      (target.port ≠ 0 → ∀ e ∈ h.listeners, target.conflicts e = false) := by
  rw [← Bool.not_eq_true, isContended_iff]
  simp

/-- Somebody listens on an endpoint if another program does or a socket does. -/
theorem mem_listeners_iff {h : Host} {e : Endpoint} :
    e ∈ h.listeners ↔ e ∈ h.foreign ∨ ∃ s ∈ h.sockets, e ∈ s.listensOn? := by
  simp [listeners, ownListeners, Socket.listensOn?]

/-- A socket that listens is among the listeners. -/
theorem mem_listeners_of_socket {h : Host} {a : Socket} (ha : a ∈ h.sockets) {e : Endpoint}
    (he : e ∈ a.listensOn?) : e ∈ h.listeners :=
  mem_listeners_iff.mpr (.inr ⟨a, ha, he⟩)

/-- Who does not contend conflicts with no listener. -/
theorem conflicts_of_not_contended {h : Host} {e f : Endpoint} (hfree : h.isContended e = false)
    (hf : f ∈ h.listeners) (hport : e.port ≠ 0) : e.conflicts f = false :=
  isContended_eq_false_iff.mp hfree hport f hf

/-- Where there are fewer listeners, who did not contend does not contend. -/
theorem isContended_of_subset {h h' : Host} {e : Endpoint} (hfree : h.isContended e = false)
    (hlisteners : ∀ f ∈ h'.listeners, e.conflicts f = true → f ∈ h.listeners) :
    h'.isContended e = false := by
  refine isContended_eq_false_iff.mpr fun hport f hf => Bool.eq_false_iff.mpr fun hconflict => ?_
  exact Bool.eq_false_iff.mp
    (conflicts_of_not_contended hfree (hlisteners f hf hconflict) hport) hconflict

/-- Whether a listener contends is settled by the listeners alone. -/
theorem isContended_congr {h h' : Host} (hforeign : h'.foreign = h.foreign)
    (hown : h'.ownListeners = h.ownListeners) (target : Endpoint) :
    h'.isContended target = h.isContended target := by
  simp only [isContended, listeners, hforeign, hown]

/-- Whether a listener may be bound is settled by the assigned addresses and the listeners. -/
theorem bindFault?_congr {h h' : Host} (hassigned : h'.assigned = h.assigned)
    (hforeign : h'.foreign = h.foreign) (hown : h'.ownListeners = h.ownListeners)
    (kind : SocketKind) (target : Endpoint) :
    h'.bindFault? kind target = h.bindFault? kind target := by
  simp only [bindFault?, addressFault?, hassigned, isContended_congr hforeign hown]

/-- A stream may be bound exactly where the address is usable and nobody contends. -/
theorem bindFault?_stream_eq_none_iff {h : Host} {target : Endpoint} :
    h.bindFault? .stream target = none ↔
      h.addressFault? target.toScopedAddress = none ∧ h.isContended target = false := by
  simp [bindFault?]

/-- The rule for binding never tells of an unreachable network. -/
theorem bindFault?_not_unreachable {h : Host} {kind : SocketKind} {target : Endpoint} {e : Errno}
    (he : h.bindFault? kind target = some e) : e.isUnreachable = false := by
  have hcases : e = .invalidArgument ∨ e = .addressNotAvailable ∨ e = .addressInUse := by
    simp only [bindFault?, addressFault?, Option.or_eq_some_iff] at he
    grind
  rcases hcases with rfl | rfl | rfl <;> rfl

/-- Off the link-local block the scope has no say in whether an address is usable. -/
theorem addressFault?_scope_irrelevant (h : Host) {a b : ScopedAddress}
    (hsame : a.address = b.address) (hlocal : a.address.isLinkLocal = false) :
    h.addressFault? a = h.addressFault? b := by
  simp only [addressFault?, ← hsame, hlocal]
  simp

/-- Whether an address is usable depends on the assigned ones alone. -/
theorem addressFault?_congr {h h' : Host} (hassigned : h'.assigned = h.assigned)
    (a : ScopedAddress) : h'.addressFault? a = h.addressFault? a := by
  simp only [addressFault?, hassigned]

/-- Closing a number leaves the sockets of the other numbers open. -/
theorem mem_sockets_close {h : Host} {id : SocketId} {s : Socket} :
    s ∈ (h.close id).sockets ↔ s ∈ h.sockets ∧ s.id ≠ id := by
  simp [close, record]

/-- Closing sockets that an endpoint leaves alone does not change whether it is contended for. -/
theorem isContended_close {h : Host} {id : SocketId} {e : Endpoint}
    (hother : ∀ s ∈ h.sockets, s.id = id → ∀ f ∈ s.listensOn?, e.conflicts f = false) :
    (h.close id).isContended e = h.isContended e := by
  have hfewer : ∀ f ∈ (h.close id).listeners, f ∈ h.listeners := by
    intro f hf
    rcases mem_listeners_iff.mp hf with hforeign | ⟨s, hs, hlistens⟩
    · exact mem_listeners_iff.mpr (.inl hforeign)
    · exact mem_listeners_of_socket (mem_sockets_close.mp hs).1 hlistens
  have hsame : ∀ f ∈ h.listeners, e.conflicts f = true → f ∈ (h.close id).listeners := by
    intro f hf hconflict
    rcases mem_listeners_iff.mp hf with hforeign | ⟨s, hs, hlistens⟩
    · exact mem_listeners_iff.mpr (.inl hforeign)
    · refine mem_listeners_of_socket (mem_sockets_close.mpr ⟨hs, fun hid => ?_⟩) hlistens
      exact Bool.eq_false_iff.mp (hother s hs hid f hlistens) hconflict
  cases hcontended : h.isContended e with
  | false => exact isContended_of_subset hcontended fun f hf _ => hfewer f hf
  | true =>
    obtain ⟨hport, f, hf, hconflict⟩ := isContended_iff.mp hcontended
    exact isContended_iff.mpr ⟨hport, f, hsame f hf hconflict, hconflict⟩

end Host

end PortWarden
