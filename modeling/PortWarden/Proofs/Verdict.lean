import PortWarden.Proofs.Run

/-!
# Verdicts without faults

On a host without faults the rule for binding decides every check. A verdict on the whole host is a
chain of checks; since each leaves nothing open, all of them are decided by the listeners that were
there before the first.
-/

namespace PortWarden

/-- The interface addresses that a source has on a host. -/
def InterfaceSource.listed (source : InterfaceSource) (h : Host) : List InterfaceAddress :=
  match source with
  | .system => h.interfaces.filterMap InterfaceEntry.interfaceAddress?
  | .fixed addresses => addresses

/-- Without faults a source gives its interface addresses. -/
theorem InterfaceSource.addresses_of_no_faults (source : InterfaceSource) {w : Logged Host}
    (hfaults : w.state.faults = []) :
    (source.addresses w).1 = .ok (source.listed w.state) := by
  cases source with
  | fixed addresses => rfl
  | system =>
    have hsteady := Host.Steady.of_no_faults hfaults
    simp only [addresses, Host.listInterfaces, Host.strike_of_steady hsteady,
      Host.faultFor?_of_no_faults hfaults]
    rfl

/-- The interface addresses of a source depend on those of the host alone. -/
theorem InterfaceSource.listed_congr {source : InterfaceSource} {h h' : Host}
    (hinterfaces : h'.interfaces = h.interfaces) : source.listed h' = source.listed h := by
  cases source with
  | fixed addresses => rfl
  | system => simp only [listed, hinterfaces]

/-- An endpoint of a port that has to be free before the port is free on the whole host, which lists
its interfaces by `entries`. -/
inductive InterfaceSource.Requires (entries : List InterfaceEntry) (port : UInt16) :
    InterfaceSource → Endpoint → Prop where
  /-- The wildcard has to be free in any case. -/
  | wildcard {source : InterfaceSource} :
      Requires entries port source ⟨⟨.v4 ⟨0, 0, 0, 0⟩, 0⟩, port⟩
  /-- So does every IPv4 address that the host lists, for which the interface does not matter. -/
  | listedV4 {name : String} {a : IPv4} {scope : UInt32}
      (hentry : ⟨name, .internet ⟨.v4 a, scope⟩⟩ ∈ entries) :
      Requires entries port .system ⟨⟨.v4 a, 0⟩, port⟩
  /-- So does every IPv6 address that the host lists, on its interface. -/
  | listedV6 {name : String} {a : IPv6} {scope : UInt32}
      (hentry : ⟨name, .internet ⟨.v6 a, scope⟩⟩ ∈ entries) :
      Requires entries port .system ⟨⟨.v6 a, scope⟩, port⟩
  /-- Where the interface addresses are known, the IPv4 ones have to be free and not those that the
  host lists. -/
  | fixedV4 {is : List InterfaceAddress} {name : String} {a : IPv4} {scope : UInt32}
      (hi : ⟨name, .v4 a, scope⟩ ∈ is) : Requires entries port (.fixed is) ⟨⟨.v4 a, 0⟩, port⟩
  /-- The IPv6 ones have to be free on their interfaces. -/
  | fixedV6 {is : List InterfaceAddress} {name : String} {a : IPv6} {scope : UInt32}
      (hi : ⟨name, .v6 a, scope⟩ ∈ is) : Requires entries port (.fixed is) ⟨⟨.v6 a, scope⟩, port⟩

/-- The interface addresses of a host are those of the entries in which there is one. -/
theorem InterfaceSource.mem_endpoints_system_iff {h : Host} {port : UInt16} {e : Endpoint} :
    e ∈ (InterfaceSource.system.listed h).map (·.endpoint port) ↔
      (∃ name a scope, (⟨name, .internet ⟨.v4 a, scope⟩⟩ : InterfaceEntry) ∈ h.interfaces ∧
        e = ⟨⟨.v4 a, 0⟩, port⟩) ∨
      ∃ name a scope, (⟨name, .internet ⟨.v6 a, scope⟩⟩ : InterfaceEntry) ∈ h.interfaces ∧
        e = ⟨⟨.v6 a, scope⟩, port⟩ := by
  simp only [listed, List.mem_map, List.mem_filterMap]
  constructor
  · rintro ⟨i, ⟨⟨name, ⟨a | a, scope⟩ | _ | _⟩, hentry, hi⟩, rfl⟩ <;> cases hi
    · exact .inl ⟨name, a, scope, hentry, rfl⟩
    · exact .inr ⟨name, a, scope, hentry, rfl⟩
  · rintro (⟨name, a, scope, hentry, rfl⟩ | ⟨name, a, scope, hentry, rfl⟩)
    · exact ⟨_, ⟨_, hentry, rfl⟩, rfl⟩
    · exact ⟨_, ⟨_, hentry, rfl⟩, rfl⟩

/-- The endpoints that are checked are those that are required. -/
theorem InterfaceSource.requires_iff {source : InterfaceSource} {h : Host} {port : UInt16}
    {e : Endpoint} : source.Requires h.interfaces port e ↔
      e ∈ Address.wildcard.endpoint port :: (source.listed h).map (·.endpoint port) := by
  rw [List.mem_cons]
  constructor
  · rintro (_ | hentry | hentry | hi | hi)
    · exact .inl rfl
    · exact .inr (mem_endpoints_system_iff.mpr (.inl ⟨_, _, _, hentry, rfl⟩))
    · exact .inr (mem_endpoints_system_iff.mpr (.inr ⟨_, _, _, hentry, rfl⟩))
    · exact .inr (List.mem_map.mpr ⟨_, hi, rfl⟩)
    · exact .inr (List.mem_map.mpr ⟨_, hi, rfl⟩)
  · rintro (rfl | hlisted)
    · exact .wildcard
    · cases source with
      | system =>
        rcases mem_endpoints_system_iff.mp hlisted with
          ⟨name, a, scope, hentry, rfl⟩ | ⟨name, a, scope, hentry, rfl⟩
        · exact .listedV4 hentry
        · exact .listedV6 hentry
      | fixed is =>
        obtain ⟨⟨name, a | a, scope⟩, hi, rfl⟩ := List.mem_map.mp hlisted
        · exact .fixedV4 hi
        · exact .fixedV6 hi

/-- An address of the block `fe80::/10`, in which the first ten bits of the address are fixed. -/
def Address.InLinkLocalBlock : Address → Prop
  | v4 _ => False
  | v6 a => 0xfe80 ≤ (a.groups.get 0).toNat ∧ (a.groups.get 0).toNat ≤ 0xfebf

/-- Clearing the six lowest bits of a number of 16 bits takes it down to a multiple of 64. -/
theorem Text.and_high_bits {n : Nat} (hn : n < 0x10000) : n &&& 0xffc0 = n / 64 * 64 := by
  have hmask : 0xffc0 = (2 ^ 10 - 1) <<< 6 := by decide
  have hshifted : n / 64 * 64 = (n >>> 6) <<< 6 := by
    rw [Nat.shiftRight_eq_div_pow, Nat.shiftLeft_eq]
  rw [hmask, hshifted]
  refine Nat.eq_of_testBit_eq fun i => ?_
  simp only [Nat.testBit_and, Nat.testBit_shiftLeft, Nat.testBit_two_pow_sub_one,
    Nat.testBit_shiftRight]
  by_cases hlow : 6 ≤ i
  · have hplace : 6 + (i - 6) = i := by omega
    by_cases hhigh : i < 16
    · have hkept : i - 6 < 10 := by omega
      simp [hlow, hplace, hkept]
    · have hpow : 2 ^ 16 ≤ 2 ^ i := Nat.pow_le_pow_right (by decide) (by omega)
      have hbit : n.testBit i = false := Nat.testBit_lt_two_pow (Nat.lt_of_lt_of_le hn hpow)
      simp [hplace, hbit]
  · simp [hlow]

/-- The link-local addresses are those of their block. -/
theorem Address.isLinkLocal_iff {a : Address} : a.isLinkLocal = true ↔ a.InLinkLocalBlock := by
  cases a with
  | v4 a => simp [isLinkLocal, InLinkLocalBlock]
  | v6 a =>
    simp only [isLinkLocal, IPv6.isLinkLocal, beq_iff_eq, InLinkLocalBlock, ← UInt16.toNat_inj,
      UInt16.toNat_and]
    change a.groups[0].toNat &&& 0xffc0 = 0xfe80 ↔
      0xfe80 ≤ a.groups[0].toNat ∧ a.groups[0].toNat ≤ 0xfebf
    rw [Text.and_high_bits a.groups[0].toNat_lt]
    omega

/-- After a question that leaves nothing open, the same streams may be bound as before. -/
theorem Host.Leaves.bindFault?_eq {h h' : Host} (hleaves : h.Leaves h' []) (target : Endpoint) :
    h'.bindFault? .stream target = h.bindFault? .stream target := by
  refine bindFault?_congr hleaves.assigned hleaves.foreign ?_ .stream target
  simp only [ownListeners, hleaves.sockets, List.nil_append]

namespace Prober

variable (p : Prober)

/-- A check passes where a listener may be bound, and on a link-local address in any case if the
options say so. -/
def Admits (h : Host) (target : Endpoint) : Prop :=
  h.bindFault? .stream target = none ∨
    target.address.isLinkLocal = true ∧ p.options.linkLocalWorkaround = true

instance (h : Host) (target : Endpoint) : Decidable (p.Admits h target) :=
  inferInstanceAs (Decidable (_ ∨ _))

/-- What a claim comes to on a steady host. -/
def claimResult (h : Host) (target : Endpoint) : Except Failure (Option Keeper) :=
  match h.listenFault? target with
  | none => .ok (some ⟨target.port, some (h.created + 1)⟩)
  | some errno =>
    if errno.isUnreachable then .error (.networkUnreachable target errno)
    else if p.options.linkLocalWorkaround && target.address.isLinkLocal then
      .ok (some ⟨target.port, none⟩)
    else .ok none

/-- On a steady host it is known beforehand what a claim comes to. -/
theorem claim_of_steady {w : Logged Host} (hs : w.state.Steady) (target : Endpoint) :
    (p.claim target w).1 = p.claimResult w.state target := by
  have hopen := openListener_of_steady hs target
  rcases hrun : openListener target w.state with ⟨result, m⟩
  rw [hrun] at hopen
  obtain rfl := hopen
  simp only [claim, claimResult, hrun]
  cases w.state.listenFault? target with
  | none => rfl
  | some errno =>
    dsimp only
    split
    · rfl
    · split <;> rfl

/-- A check passes if the claim behind it gives a keeper. -/
theorem released_fst (claim : Probing Host (Option Keeper)) (w : Logged Host) :
    (released claim w).1 = (claim w).1.map (·.isSome) := by
  simp only [released]
  rcases claim w with ⟨failure | _ | keeper, m⟩ <;> rfl

/-- Without faults a check passes where the prober admits it. -/
theorem isFree_of_no_faults {w : Logged Host} (hfaults : w.state.faults = [])
    (target : Endpoint) :
    (p.isFree target w).1 = .ok (decide (p.Admits w.state target)) := by
  have hclaim := p.claim_of_steady (.of_no_faults hfaults) target
  rw [isFree, released_fst, hclaim, claimResult, Host.listenFault?_of_no_faults hfaults]
  cases hrule : w.state.bindFault? .stream target with
  | none => simp [Admits, hrule, Except.map]
  | some errno =>
    simp only [Admits, hrule, Host.bindFault?_not_unreachable hrule, reduceCtorEq, false_or]
    by_cases hwaived : target.address.isLinkLocal = true ∧ p.options.linkLocalWorkaround = true
    · simp [hwaived.1, hwaived.2, Except.map]
    · rw [decide_eq_false hwaived]
      have hnot : (p.options.linkLocalWorkaround && target.address.isLinkLocal) = false := by
        rw [Bool.and_comm]
        simpa using hwaived
      simp [hnot, Except.map]

/-- After a question that leaves nothing open, a prober admits what it admitted before. -/
theorem admits_iff_of_leaves {h h' : Host} (hleaves : h.Leaves h' []) (target : Endpoint) :
    p.Admits h' target ↔ p.Admits h target := by
  unfold Admits
  rw [hleaves.bindFault?_eq]

/-- Without faults the interface addresses pass their checks if the prober admits them all, and the
checks do not disturb each other. -/
theorem isFreeOnEach_of_no_faults (port : UInt16) (is : List InterfaceAddress) {w : Logged Host}
    (hb : w.state.Balanced) (hfaults : w.state.faults = []) :
    (p.isFreeOnEach port is w).1 =
      .ok (decide (∀ i ∈ is, p.Admits w.state (i.endpoint port))) := by
  induction is generalizing w with
  | nil => simp [isFreeOnEach, pure_apply]
  | cons i is ih =>
    have hfree := p.isFree_of_no_faults hfaults (i.endpoint port)
    obtain ⟨m, hchain, hleaves⟩ := (p.isFree_leavesOpen (i.endpoint port)).goes_on hb hfree
      fun free => if free then p.isFreeOnEach port is else do
        modify (·.note (.interfaceInUse port i.name i.address))
        return false
    rw [isFreeOnEach, hchain]
    by_cases hadmits : p.Admits w.state (i.endpoint port)
    · have hrest := ih hleaves.balanced (hleaves.no_faults hfaults)
      simp only [p.admits_iff_of_leaves hleaves] at hrest
      simp only [hadmits, decide_true, if_true, hrest, List.forall_mem_cons, true_and]
    · simp only [hadmits, decide_false, List.forall_mem_cons, false_and]
      rfl

/-- The endpoints that have to be free before a port is free on the whole host. -/
def targets (h : Host) (port : UInt16) : List Endpoint :=
  Address.wildcard.endpoint port :: (p.interfaces.listed h).map (·.endpoint port)

/-- The wildcard is admitted only if a listener may be bound to it. -/
theorem admits_wildcard_iff (h : Host) (port : UInt16) :
    p.Admits h (Address.wildcard.endpoint port) ↔
      h.bindFault? .stream (Address.wildcard.endpoint port) = none := by
  have hlocal : (Address.wildcard.endpoint port).address.isLinkLocal = false := rfl
  simp [Admits, hlocal]

/-- Without faults a claim on one address gives a keeper that holds its socket if a listener may be
bound. -/
theorem claim_of_bindable {w : Logged Host} (hfaults : w.state.faults = []) {target : Endpoint}
    (hrule : w.state.bindFault? .stream target = none) :
    (p.claim target w).1 = .ok (some ⟨target.port, some (w.state.created + 1)⟩) := by
  rw [p.claim_of_steady (.of_no_faults hfaults), claimResult,
    Host.listenFault?_of_no_faults hfaults, hrule]

/-- Without faults the checks on the whole host are passed if the prober admits every endpoint that
has to be free. -/
theorem checkEverywhere_of_no_faults (port : UInt16) {w : Logged Host} (hb : w.state.Balanced)
    (hfaults : w.state.faults = []) :
    (p.checkEverywhere port w).1 =
      .ok (decide (∀ e ∈ p.targets w.state port, p.Admits w.state e)) := by
  have hfree := p.isFree_of_no_faults hfaults (Address.wildcard.endpoint port)
  obtain ⟨m, hchain, hleaves⟩ :=
    (p.isFree_leavesOpen (Address.wildcard.endpoint port)).goes_on hb hfree _
  simp only [targets, List.forall_mem_cons, List.forall_mem_map]
  rw [checkEverywhere, hchain]
  by_cases hwildcard : p.Admits w.state (Address.wildcard.endpoint port)
  · have hlisted := p.interfaces.addresses_of_no_faults (hleaves.no_faults hfaults)
    rw [InterfaceSource.listed_congr hleaves.interfaces] at hlisted
    obtain ⟨m', hchain, hlisting⟩ :=
      p.interfaces.addresses_leavesOpen.goes_on hleaves.balanced hlisted _
    have hboth := hleaves.trans hlisting
    have hchecks := p.isFreeOnEach_of_no_faults port (p.interfaces.listed w.state) hboth.balanced
      (hboth.no_faults hfaults)
    simp only [p.admits_iff_of_leaves hboth] at hchecks
    simp only [hwildcard, decide_true, if_true, true_and]
    rw [hchain, hchecks]
  · simp only [hwildcard, decide_false, false_and]
    rfl

/-- Without faults a port can be claimed on the whole host if the prober admits every endpoint that
has to be free. The claim always holds a socket. -/
theorem claimEverywhere_of_no_faults (port : UInt16) {w : Logged Host} (hb : w.state.Balanced)
    (hfaults : w.state.faults = []) :
    ∃ kept, (p.claimEverywhere port w).1 = .ok kept ∧ (∀ keeper ∈ kept, keeper.isHeld = true) ∧
      kept.isSome = decide (∀ e ∈ p.targets w.state port, p.Admits w.state e) := by
  have hchecks := p.checkEverywhere_of_no_faults port hb hfaults
  obtain ⟨m, hchain, hleaves⟩ := (p.checkEverywhere_leavesOpen port).goes_on hb hchecks
    fun free => if free then p.claim (Address.wildcard.endpoint port) else pure none
  rw [claimEverywhere_eq, hchain]
  by_cases hadmitted : ∀ e ∈ p.targets w.state port, p.Admits w.state e
  · have hrule : m.state.bindFault? .stream (Address.wildcard.endpoint port) = none := by
      rw [hleaves.bindFault?_eq]
      exact (p.admits_wildcard_iff w.state port).mp (hadmitted _ (.head _))
    have hclaim := p.claim_of_bindable (hleaves.no_faults hfaults) hrule
    rw [decide_eq_true hadmitted, if_pos rfl]
    refine ⟨_, hclaim, ?_, rfl⟩
    rintro keeper ⟨rfl⟩
    rfl
  · rw [decide_eq_false hadmitted]
    exact ⟨none, rfl, by simp, rfl⟩

/-- Without faults a port is free on the whole host if the prober admits every endpoint that has to
be free. -/
theorem isAvailableEverywhere_of_no_faults (port : UInt16) {w : Logged Host} (hb : w.state.Balanced)
    (hfaults : w.state.faults = []) :
    (p.isAvailable port .stream none w).1 =
      .ok (decide (∀ e ∈ p.targets w.state port, p.Admits w.state e)) := by
  obtain ⟨kept, hclaim, -, hsome⟩ := p.claimEverywhere_of_no_faults port hb hfaults
  change (released (p.claimEverywhere port) w).1 = _
  rw [released_fst, hclaim]
  exact congrArg Except.ok hsome

/-- Every endpoint that has to be free is admitted if it may be bound or is waived as a link-local
one. -/
theorem all_admitted_iff {h : Host} {port : UInt16} :
    (∀ e ∈ p.targets h port, p.Admits h e) ↔
      ∀ e, p.interfaces.Requires h.interfaces port e → h.bindFault? .stream e = none ∨
        e.address.InLinkLocalBlock ∧ p.options.linkLocalWorkaround = true := by
  refine forall_congr' fun e => imp_congr InterfaceSource.requires_iff.symm ?_
  rw [Admits, Address.isLinkLocal_iff]

end Prober

namespace Session

/-- The verdict on a port of the whole host, as a prober gives it in a state of a session. -/
structure TellsWholeHost (s : Session) (p : Prober) (port : UInt16) (free : Bool) : Prop where
  /-- The prober gives it. -/
  answer : (p.isAvailable port .stream none s.world.toLogged).1 = .ok free
  /-- The port is free exactly if each endpoint that has to be may be bound beside the listeners
  that are there, or is link-local and waived by the options. -/
  free_iff : free = true ↔ ∀ e, p.interfaces.Requires s.world.host.interfaces port e →
    s.world.host.bindFault? .stream e = none ∨
      e.address.InLinkLocalBlock ∧ p.options.linkLocalWorkaround = true
  /-- The question leaves the sockets as they are. -/
  sockets : (p.isAvailable port .stream none s.world.toLogged).2.state.sockets =
    s.world.host.sockets
  /-- Of the interface addresses nothing matters but which endpoints have to be free, so neither
  their order nor how often they are listed does. -/
  unordered : ∀ (q : Prober) (entries : List InterfaceEntry), q.options = p.options →
    (∀ e, q.interfaces.Requires entries port e ↔
      p.interfaces.Requires s.world.host.interfaces port e) →
    (q.isAvailable port .stream none
      { s.world.toLogged with state := { s.world.host with interfaces := entries } }).1 = .ok free

/-- In whatever state a session is, a port is free on the whole host exactly if it is free on the
wildcard and on each interface address beside the listeners that are there. -/
theorem Reachable.verdict_on_whole_host {may : Host → Endpoint → Prop} {s : Session}
    (hs : s.Reachable may) (hfaults : s.world.host.faults = []) (p : Prober) (port : UInt16) :
    ∃ free, s.TellsWholeHost p port free := by
  obtain ⟨origin, hsound⟩ := hs.sound
  have hb := hsound.balanced
  refine ⟨_, p.isAvailableEverywhere_of_no_faults port hb hfaults, ?_, ?_, ?_⟩
  case refine_1 =>
    rw [decide_eq_true_iff]
    exact p.all_admitted_iff
  case refine_2 =>
    exact ((p.isAvailable_leavesOpen port .stream none).leaves_nothing hb).sockets
  case refine_3 =>
    intro q entries hoptions hsame
    let l : Logged Host :=
      { s.world.toLogged with state := { s.world.host with interfaces := entries } }
    have hl : l.state.Balanced := ⟨hb.accounts, hb.distinct, hb.bounded⟩
    refine (q.isAvailableEverywhere_of_no_faults port (w := l) hl hfaults).trans ?_
    refine congrArg _ (decide_eq_decide.mpr ?_)
    rw [q.all_admitted_iff, p.all_admitted_iff]
    exact forall_congr' fun e => imp_congr (hsame e) (by rw [hoptions]; rfl)

/-- A session in which nothing has happened yet, on a host that has its loopback addresses and one
on a link. Other programs listen on port 20001 of `::1` and on port 20002 of the link. -/
def onLink : Session where
  service := { config := {}, prober := {}, generator := 0 }
  world :=
    let link : ScopedAddress := ⟨.v6 ⟨#v[0xfe80, 0, 0, 0, 0, 0, 0, 7]⟩, 3⟩
    { state := {
        assigned := [⟨.v4 .loopback, 0⟩, ⟨.v6 .loopback, 0⟩, link]
        interfaces := [⟨"lo", .link⟩, ⟨"lo", .internet ⟨.v4 .loopback, 0⟩⟩,
          ⟨"lo", .internet ⟨.v6 .loopback, 0⟩⟩, ⟨"tun0", .absent⟩, ⟨"eth0", .internet link⟩]
        foreign := [⟨⟨.v6 .loopback, 0⟩, 20001⟩, ⟨link, 20002⟩] }
      randomness := { entropy := .cycle [] } }

/-- On the whole host port 20001 is in use since another program listens there on `::1`, and so is
port 20004, which is kept on that address. Port 20002 is in use on the link alone, where it is
checked on the interface of the address, and counts as free by default. Port 20003 is free. -/
theorem verdict_on_link :
    let t := (onLink.step 0 (.keep "kept" 20004 .stream (some (.v6 .loopback)))).2
    let strict : Prober := { options := { linkLocalWorkaround := false } }
    let lax : Prober := {}
    t.world.host.faults = [] ∧ t.world.host.ownListeners = [⟨⟨.v6 .loopback, 0⟩, 20004⟩] ∧
      (strict.isAvailable 20001 .stream none t.world.toLogged).1 = .ok false ∧
      (strict.isAvailable 20002 .stream none t.world.toLogged).1 = .ok false ∧
      (strict.isAvailable 20003 .stream none t.world.toLogged).1 = .ok true ∧
      (strict.isAvailable 20004 .stream none t.world.toLogged).1 = .ok false ∧
      (lax.isAvailable 20002 .stream none t.world.toLogged).1 = .ok true := by
  intro t strict lax
  have hrun : Run anywhere onLink t := (Run.refl onLink).step onLink.service 0 trivial
  have hfresh : onLink.Fresh := by constructor <;> rfl
  have hreachable : t.Reachable anywhere := ⟨onLink, hfresh, hrun⟩
  have hfaults : t.world.host.faults = [] := by decide +kernel
  have hinterfaces : t.world.host.interfaces = onLink.world.host.interfaces := by decide +kernel
  -- a port is in use if one endpoint is that has to be free
  have hbusy (port : UInt16) {e : Endpoint}
      (he : strict.interfaces.Requires t.world.host.interfaces port e)
      (hrule : t.world.host.bindFault? .stream e ≠ none) :
      (strict.isAvailable port .stream none t.world.toLogged).1 = .ok false := by
    obtain ⟨free, htells⟩ := hreachable.verdict_on_whole_host hfaults strict port
    have hnot : free = false := by
      refine Bool.eq_false_iff.mpr fun hfree => ?_
      obtain hnone | ⟨-, ⟨⟩⟩ := htells.free_iff.mp hfree e he
      exact hrule hnone
    rw [htells.answer, hnot]
  -- it is free if all of them are
  have hfree (p : Prober) (port : UInt16)
      (hadmits : ∀ e ∈ p.targets t.world.host port, p.Admits t.world.host e) :
      (p.isAvailable port .stream none t.world.toLogged).1 = .ok true := by
    obtain ⟨free, htells⟩ := hreachable.verdict_on_whole_host hfaults p port
    rw [htells.answer, htells.free_iff.mpr (p.all_admitted_iff.mp hadmits)]
  have hloopback (port : UInt16) : strict.interfaces.Requires t.world.host.interfaces port
      ⟨⟨.v6 .loopback, 0⟩, port⟩ := by
    rw [hinterfaces]
    exact .listedV6 (.tail _ (.tail _ (.head _)))
  have hlink (port : UInt16) : strict.interfaces.Requires t.world.host.interfaces port
      ⟨⟨.v6 ⟨#v[0xfe80, 0, 0, 0, 0, 0, 0, 7]⟩, 3⟩, port⟩ := by
    rw [hinterfaces]
    exact .listedV6 (.tail _ (.tail _ (.tail _ (.tail _ (.head _)))))
  exact ⟨hfaults, by decide +kernel, hbusy 20001 (hloopback 20001) (by decide +kernel),
    hbusy 20002 (hlink 20002) (by decide +kernel), hfree strict 20003 (by decide +kernel),
    hbusy 20004 (hloopback 20004) (by decide +kernel), hfree lax 20002 (by decide +kernel)⟩

end Session

end PortWarden
