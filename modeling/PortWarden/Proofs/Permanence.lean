import PortWarden.Proofs.Verdict

/-!
# Verdicts under permanent faults

On a host whose faults are permanent it is settled beforehand what a check of a stream port comes
to: by the faults, the assigned addresses, the interfaces and the listeners. None of them is changed
by a question that leaves nothing open, so the same verdict is given again and again.
-/

namespace PortWarden

/-- Two hosts on which the same checks pass. -/
structure Host.Alike (h h' : Host) : Prop where
  /-- The same addresses are assigned. -/
  assigned : h'.assigned = h.assigned
  /-- The same endpoints are listened on by other programs. -/
  foreign : h'.foreign = h.foreign
  /-- The interfaces are the same. -/
  interfaces : h'.interfaces = h.interfaces
  /-- The same calls fail. -/
  faults : h'.faults = h.faults
  /-- The program listens on the same endpoints. -/
  own : h'.ownListeners = h.ownListeners

/-- A question that leaves nothing open leaves a steady host alike. -/
theorem Host.Leaves.alike {h h' : Host} (hleaves : h.Leaves h' []) (hs : h.Steady) :
    h.Alike h' where
  assigned := hleaves.assigned
  foreign := hleaves.foreign
  interfaces := hleaves.interfaces
  faults := hleaves.faults hs
  own := by simp only [ownListeners, hleaves.sockets, List.nil_append]

namespace Host.Alike

variable {h h' : Host} (halike : h.Alike h')
include halike

/-- What is alike to a steady host is steady. -/
theorem steady (hs : h.Steady) : h'.Steady := hs.congr halike.faults

/-- The faults give a call the same error. -/
theorem faultFor?_eq (operation : Operation) (site : Option CallSite) :
    h'.faultFor? operation site = h.faultFor? operation site := by
  simp only [faultFor?, halike.faults]

/-- A listener meets the same error. -/
theorem listenFault?_eq (target : Endpoint) : h'.listenFault? target = h.listenFault? target := by
  simp only [listenFault?, listenOnFault?, halike.faultFor?_eq,
    bindFault?_congr halike.assigned halike.foreign halike.own]

end Host.Alike

namespace InterfaceSource

/-- What asking a source for its addresses comes to on a steady host. -/
def listing (source : InterfaceSource) (h : Host) : Except Failure (List InterfaceAddress) :=
  match source with
  | .fixed addresses => .ok addresses
  | .system =>
    match h.faultFor? .listInterfaces none with
    | some errno => .error (.interfaceListing errno.listingMessage)
    | none => .ok (h.interfaces.filterMap InterfaceEntry.interfaceAddress?)

/-- On a steady host it is known beforehand what asking for addresses comes to. -/
theorem addresses_of_steady (source : InterfaceSource) {w : Logged Host} (hs : w.state.Steady) :
    (source.addresses w).1 = source.listing w.state := by
  cases source with
  | fixed addresses => rfl
  | system =>
    simp only [addresses, listing, Host.listInterfaces, Host.strike_of_steady hs]
    cases w.state.faultFor? .listInterfaces none <;> rfl

/-- The same addresses are given on a host that is alike. -/
theorem listing_congr {h h' : Host} (halike : h.Alike h') (source : InterfaceSource) :
    source.listing h' = source.listing h := by
  simp only [listing, halike.faultFor?_eq, halike.interfaces]

end InterfaceSource

/-- The endpoint that is claimed for no address is not link-local either. -/
theorem isLinkLocal_claimed {address : Option Address}
    (hlocal : ∀ a ∈ address, a.isLinkLocal = false) (port : UInt16) :
    ((address.getD .wildcard).endpoint port).address.isLinkLocal = false := by
  cases address with
  | some address => exact hlocal address rfl
  | none => rfl

namespace Prober

variable (p : Prober)

/-- What a check on one endpoint comes to on a steady host. -/
def verdictAt (h : Host) (target : Endpoint) : Except Failure Bool :=
  (p.claimResult h target).map (·.isSome)

/-- What the checks before a claim on the whole host come to on a steady host. -/
def verdictEverywhere (h : Host) (port : UInt16) : Except Failure Bool := do
  if ← p.verdictAt h (Address.wildcard.endpoint port) then
    (← p.interfaces.listing h).allM fun i => p.verdictAt h (i.endpoint port)
  else return false

/-- What a check of a stream port comes to on a steady host. -/
def verdict (h : Host) (port : UInt16) : Option Address → Except Failure Bool
  | some address => p.verdictAt h (address.endpoint port)
  | none => p.verdictEverywhere h port

section

variable {h h' : Host} (halike : h.Alike h')
include halike

/-- A check comes to the same on a host that is alike. -/
theorem verdictAt_congr (target : Endpoint) : p.verdictAt h' target = p.verdictAt h target := by
  simp only [verdictAt, claimResult, halike.listenFault?_eq]
  cases h.listenFault? target <;> rfl

/-- Verdicts are the same on a host that is alike. -/
theorem verdict_congr (port : UInt16) (address : Option Address) :
    p.verdict h' port address = p.verdict h port address := by
  cases address <;>
    simp only [verdict, verdictEverywhere, p.verdictAt_congr halike,
      InterfaceSource.listing_congr halike]

end

/-- On a steady host it is known beforehand what a check on one endpoint comes to. -/
theorem isFree_of_steady {w : Logged Host} (hs : w.state.Steady) (target : Endpoint) :
    (p.isFree target w).1 = p.verdictAt w.state target := by
  rw [isFree, released_fst, p.claim_of_steady hs, verdictAt]

/-- On a steady host it is known beforehand what a check on interface addresses comes to. -/
theorem isFreeOnEach_of_steady (port : UInt16) (is : List InterfaceAddress) {w : Logged Host}
    (hb : w.state.Balanced) (hs : w.state.Steady) :
    (p.isFreeOnEach port is w).1 = is.allM fun i => p.verdictAt w.state (i.endpoint port) := by
  induction is generalizing w with
  | nil => rfl
  | cons i is ih =>
    have hleaves := (p.isFree_leavesOpen (i.endpoint port)).leaves_nothing hb
    refine chain_fst (p.isFree_of_steady hs (i.endpoint port)) fun free m hrun => ?_
    rw [hrun] at hleaves
    have halike := hleaves.alike hs
    cases free with
    | false => rfl
    | true =>
      have hrest := ih hleaves.balanced (halike.steady hs)
      simp only [p.verdictAt_congr halike] at hrest
      exact hrest

/-- On a steady host it is known beforehand what the checks before a claim on the whole host come
to. -/
theorem checkEverywhere_of_steady (port : UInt16) {w : Logged Host} (hb : w.state.Balanced)
    (hs : w.state.Steady) : (p.checkEverywhere port w).1 = p.verdictEverywhere w.state port := by
  have hleaves := (p.isFree_leavesOpen (Address.wildcard.endpoint port)).leaves_nothing hb
  refine chain_fst (p.isFree_of_steady hs _) fun free m hrun => ?_
  rw [hrun] at hleaves
  have halike := hleaves.alike hs
  cases free with
  | false => rfl
  | true =>
    have hlisted := p.interfaces.addresses_of_steady (halike.steady hs)
    rw [InterfaceSource.listing_congr halike] at hlisted
    have hlisting := p.interfaces.addresses_leavesOpen.leaves_nothing hleaves.balanced
    refine chain_fst hlisted fun is m' hrun' => ?_
    rw [hrun'] at hlisting
    have hboth := hleaves.trans hlisting
    have hchecks := p.isFreeOnEach_of_steady port is hboth.balanced ((hboth.alike hs).steady hs)
    simp only [p.verdictAt_congr (hboth.alike hs)] at hchecks
    exact hchecks

/-- A claim on the whole host that is given back is one more check after the others. -/
theorem released_claimEverywhere (port : UInt16) :
    released (p.claimEverywhere port) = p.checkEverywhere port >>= fun free =>
      if free then p.isFree (Address.wildcard.endpoint port) else pure false := by
  funext w
  simp only [released, claimEverywhere_eq, chain_apply]
  rcases p.checkEverywhere port w with ⟨failure | _ | _, m⟩ <;> rfl

/-- A port that is free on the whole host is free on the wildcard. -/
theorem verdictAt_wildcard {h : Host} {port : UInt16}
    (hfree : p.verdictEverywhere h port = .ok true) :
    p.verdictAt h (Address.wildcard.endpoint port) = .ok true := by
  unfold verdictEverywhere at hfree
  rcases hwildcard : p.verdictAt h (Address.wildcard.endpoint port) with failure | _ | _
  · rw [hwildcard] at hfree
    cases hfree
  · rw [hwildcard] at hfree
    cases hfree
  · rfl

/-- On a steady host it is known beforehand what a check of a stream port comes to. -/
theorem isAvailable_of_steady (port : UInt16) (address : Option Address) {w : Logged Host}
    (hb : w.state.Balanced) (hs : w.state.Steady) :
    (p.isAvailable port .stream address w).1 = p.verdict w.state port address := by
  cases address with
  | some address => exact p.isFree_of_steady hs (address.endpoint port)
  | none =>
    have hchecks := p.checkEverywhere_of_steady port hb hs
    have hleaves := (p.checkEverywhere_leavesOpen port).leaves_nothing hb
    change (released (p.claimEverywhere port) w).1 = p.verdictEverywhere w.state port
    rw [released_claimEverywhere, chain_apply]
    rcases hrun : p.checkEverywhere port w with ⟨failure | _ | _, m⟩ <;>
      rw [hrun] at hchecks hleaves <;> dsimp only at hchecks ⊢
    · exact hchecks
    · exact hchecks
    · -- The wildcard is checked once more, and nothing has changed since the first time.
      have halike := hleaves.alike hs
      rw [if_pos rfl, p.isFree_of_steady (halike.steady hs), p.verdictAt_congr halike,
        p.verdictAt_wildcard hchecks.symm, hchecks]

/-- A claim gives a keeper exactly if the check passes. -/
theorem isAvailable_fst_eq_keep (port : UInt16) (address : Option Address) (w : Logged Host) :
    (p.isAvailable port .stream address w).1 = (p.keep port .stream address w).1.map (·.isSome) :=
  released_fst (p.claimStream port address) w

/-- If a port off the link-local block is free, a listener can be opened. -/
theorem listenFault?_of_free {h : Host} {port : UInt16} {address : Option Address}
    (hlocal : ∀ a ∈ address, a.isLinkLocal = false) (hfree : p.verdict h port address = .ok true) :
    h.listenFault? ((address.getD .wildcard).endpoint port) = none := by
  have hat : p.verdictAt h ((address.getD .wildcard).endpoint port) = .ok true := by
    cases address with
    | some address => exact hfree
    | none => exact p.verdictAt_wildcard hfree
  simp only [verdictAt, claimResult, isLinkLocal_claimed hlocal, Bool.and_false] at hat
  cases hfault : h.listenFault? ((address.getD .wildcard).endpoint port) with
  | none => rfl
  | some errno =>
    simp only [hfault] at hat
    split at hat <;> cases hat

/-- Off the link-local block a port is in use if somebody contends for it. -/
theorem verdict_of_contended {h : Host} {port : UInt16} {address : Option Address}
    (hlocal : ∀ a ∈ address, a.isLinkLocal = false)
    (hfault : h.listenFault? ((address.getD .wildcard).endpoint port) = some .addressInUse) :
    p.verdict h port address = .ok false := by
  cases address with
  | some address =>
    have hnotLocal : (address.endpoint port).address.isLinkLocal = false := hlocal address rfl
    change h.listenFault? (address.endpoint port) = _ at hfault
    simp only [verdict, verdictAt, claimResult, hfault, hnotLocal, Bool.and_false]
    rfl
  | none =>
    have hwildcard : p.verdictAt h (Address.wildcard.endpoint port) = .ok false := by
      have hnotLocal : (Address.wildcard.endpoint port).address.isLinkLocal = false := rfl
      change h.listenFault? (Address.wildcard.endpoint port) = _ at hfault
      simp only [verdictAt, claimResult, hfault, hnotLocal, Bool.and_false]
      rfl
    simp only [verdict, verdictEverywhere, hwildcard]
    rfl

end Prober

/-- A listener that could be opened before meets contention, and no other error, once somebody
contends for its endpoint. -/
theorem Host.listenFault?_of_contended {h h' : Host} {target : Endpoint}
    (hbefore : h.listenFault? target = none) (hassigned : h'.assigned = h.assigned)
    (hfaults : h'.faults = h.faults) (hcontended : h'.isContended target = true) :
    h'.listenFault? target = some .addressInUse := by
  simp only [listenFault?, listenOnFault?, Option.or_eq_none_iff, bindFault?] at hbefore
  obtain ⟨hcreate, hreuse, ⟨hbind, haddress, -⟩, -⟩ := hbefore
  have hsame (operation : Operation) (site : Option CallSite) :
      h'.faultFor? operation site = h.faultFor? operation site := by
    simp only [faultFor?, hfaults]
  simp [listenFault?, listenOnFault?, bindFault?, hsame, hcreate, hreuse, hbind,
    addressFault?_congr hassigned, haddress, hcontended]

end PortWarden
