import PortWarden.Proofs.Listening
import PortWarden.Probe.Prober

/-!
# Questions about stream ports

A claim leaves the socket of the keeper that it gives, and nothing otherwise; a check leaves
nothing. So each check on the way to a verdict on the whole host is made against the listeners that
were there before the first.
-/

namespace PortWarden

/-- Finding out the interface addresses leaves nothing open. -/
theorem InterfaceSource.addresses_leavesOpen (source : InterfaceSource) :
    LeavesOpen Logged.state (fun _ => []) source.addresses := by
  intro w hb
  rw [leftBy_nothing]
  cases source with
  | fixed addresses => exact .refl hb
  | system =>
    have hstrike := Host.leaves_strike hb .listInterfaces none
    simp only [addresses, Host.listInterfaces]
    rcases hrun : w.state.strike .listInterfaces none with ⟨_ | errno, m⟩ <;>
      rw [hrun] at hstrike <;> exact hstrike.trans (Host.leaves_record hstrike.balanced rfl rfl)

/-- The interface addresses cannot be found out only because of the host. -/
theorem InterfaceSource.addresses_fails (source : InterfaceSource) :
    Fails source.addresses (·.isHostFailure = true) := by
  intro w failure w' hrun
  cases source with
  | fixed addresses => cases hrun
  | system =>
    simp only [addresses] at hrun
    rcases hlist : Host.listInterfaces w.state with ⟨errno | entries, m⟩ <;> rw [hlist] at hrun <;>
      cases hrun
    rfl

namespace Prober

variable (p : Prober)

/-- A claim leaves what its keeper holds. -/
theorem claim_leavesOpen (target : Endpoint) :
    LeavesOpen Logged.state (keptAt target) (p.claim target) := by
  intro w hb
  have hleaves := openListener_leaves hb target
  simp only [claim]
  rcases hrun : openListener target w.state with ⟨errno | id, m⟩ <;> rw [hrun] at hleaves
  · dsimp only
    split
    · exact hleaves
    · split <;> exact hleaves
  · exact hleaves

/-- What a keeper for an endpoint is: it is for the port claimed, and it has no socket only if the
address is a link-local one on which the options take failures for free ports. -/
structure Gives (target : Endpoint) (keeper : Keeper) : Prop where
  /-- The port is the one claimed. -/
  port : keeper.port = target.port
  /-- Only the workaround gives a keeper without a socket. -/
  waived : keeper.socket = none →
    target.address.isLinkLocal = true ∧ p.options.linkLocalWorkaround = true

/-- The keeper that a claim gives is for the endpoint that was claimed. -/
theorem claim_answers (target : Endpoint) :
    Answers (p.claim target) fun kept => ∀ keeper ∈ kept, p.Gives target keeper := by
  intro w kept w' hrun
  simp only [claim] at hrun
  rcases hopen : openListener target w.state with ⟨errno | id, m⟩ <;> rw [hopen] at hrun
  · dsimp only at hrun
    split at hrun
    · cases hrun
    · split at hrun
      · rename_i hwaived
        cases hrun
        rintro keeper ⟨rfl⟩
        rw [Bool.and_eq_true] at hwaived
        exact ⟨rfl, fun _ => hwaived.symm⟩
      · cases hrun
        simp
  · cases hrun
    rintro keeper ⟨rfl⟩
    exact ⟨rfl, by simp⟩

/-- A claim fails only because of the host. -/
theorem claim_fails (target : Endpoint) : Fails (p.claim target) (·.isHostFailure = true) := by
  intro w failure w' hrun
  simp only [claim] at hrun
  rcases hopen : openListener target w.state with ⟨errno | id, m⟩ <;> rw [hopen] at hrun
  · dsimp only at hrun
    split at hrun
    · cases hrun
      rfl
    · split at hrun <;> cases hrun
  · cases hrun

/-- Giving back what was claimed does not fail. -/
theorem released_fails {claim : Probing Host (Option Keeper)} {holds : Failure → Prop}
    (hclaim : Fails claim holds) : Fails (released claim) holds := by
  intro w failure w' hrun
  simp only [released] at hrun
  rcases hfirst : claim w with ⟨_ | _ | keeper, m⟩ <;> rw [hfirst] at hrun <;> cases hrun
  exact hclaim w _ _ hfirst

/-- A claim that is given back at once leaves nothing. -/
theorem released_leavesOpen {claim : Probing Host (Option Keeper)} {target : Endpoint}
    (hclaim : LeavesOpen Logged.state (keptAt target) claim) :
    LeavesOpen Logged.state (fun _ => []) (released claim) := by
  intro w hb
  have hleaves := hclaim w hb
  rw [leftBy_nothing]
  simp only [released]
  rcases hrun : claim w with ⟨failure | _ | ⟨port, _ | id⟩, m⟩ <;> rw [hrun] at hleaves
  · exact hleaves
  · exact hleaves
  · exact hleaves
  · exact Host.Leaves.close hb hleaves

/-- Checking a port on one address leaves nothing. -/
theorem isFree_leavesOpen (target : Endpoint) :
    LeavesOpen Logged.state (fun _ => []) (p.isFree target) :=
  released_leavesOpen (p.claim_leavesOpen target)

/-- Checking a port on interface addresses leaves nothing. -/
theorem isFreeOnEach_leavesOpen (port : UInt16) (is : List InterfaceAddress) :
    LeavesOpen Logged.state (fun _ => []) (p.isFreeOnEach port is) := by
  induction is with
  | nil => exact .pure true
  | cons i is ih =>
    refine (p.isFree_leavesOpen (i.endpoint port)).chain fun free => ?_
    cases free with
    | true => exact ih
    | false => exact (LeavesOpen.modify fun _ => rfl).chain fun _ => .pure false

/-- Checking a port on interface addresses fails only because of the host. -/
theorem isFreeOnEach_fails (port : UInt16) (is : List InterfaceAddress) :
    Fails (p.isFreeOnEach port is) (·.isHostFailure = true) := by
  induction is with
  | nil => exact .pure true
  | cons i is ih =>
    refine (released_fails (p.claim_fails (i.endpoint port))).chain fun free => ?_
    cases free with
    | true => exact ih
    | false => exact (Fails.modify _).chain fun _ => .pure false

/-- The checks that come before a claim on the whole host. -/
def checkEverywhere (port : UInt16) : Probing Host Bool := do
  if ← p.isFree (Address.wildcard.endpoint port) then
    p.isFreeOnEach port (← p.interfaces.addresses)
  else return false

/-- A claim on the whole host is made when the checks are passed. -/
theorem claimEverywhere_eq (port : UInt16) :
    p.claimEverywhere port = p.checkEverywhere port >>= fun free =>
      if free then p.claim (Address.wildcard.endpoint port) else pure none := by
  funext w
  simp only [claimEverywhere, checkEverywhere, chain_apply]
  rcases p.isFree (Address.wildcard.endpoint port) w with ⟨failure | _ | _, m⟩
  · rfl
  · rfl
  · simp only [if_true, chain_apply]
    rcases p.interfaces.addresses m with ⟨failure | is, m⟩ <;> rfl

/-- The checks leave nothing. -/
theorem checkEverywhere_leavesOpen (port : UInt16) :
    LeavesOpen Logged.state (fun _ => []) (p.checkEverywhere port) := by
  refine (p.isFree_leavesOpen (Address.wildcard.endpoint port)).chain fun free => ?_
  cases free with
  | false => exact .pure false
  | true =>
    exact p.interfaces.addresses_leavesOpen.chain fun is => p.isFreeOnEach_leavesOpen port is

/-- A claim on the whole host leaves what its keeper holds, on the wildcard. -/
theorem claimEverywhere_leavesOpen (port : UInt16) :
    LeavesOpen Logged.state (keptAt (Address.wildcard.endpoint port)) (p.claimEverywhere port) := by
  rw [claimEverywhere_eq]
  refine (p.checkEverywhere_leavesOpen port).chain fun free => ?_
  cases free with
  | false => exact fun _ hb => .refl hb
  | true => exact p.claim_leavesOpen (Address.wildcard.endpoint port)

/-- A claim of a stream port leaves what its keeper holds, on the address asked for or else on the
wildcard. -/
theorem claimStream_leavesOpen (port : UInt16) (address : Option Address) :
    LeavesOpen Logged.state (keptAt ((address.getD .wildcard).endpoint port))
      (p.claimStream port address) := by
  cases address with
  | none => exact p.claimEverywhere_leavesOpen port
  | some address => exact p.claim_leavesOpen (address.endpoint port)

/-- A claim of a stream port fails only because of the host. -/
theorem claimStream_fails (port : UInt16) (address : Option Address) :
    Fails (p.claimStream port address) (·.isHostFailure = true) := by
  cases address with
  | some address => exact p.claim_fails (address.endpoint port)
  | none =>
    refine (released_fails (p.claim_fails (Address.wildcard.endpoint port))).chain fun free => ?_
    cases free with
    | false => exact .pure none
    | true =>
      refine p.interfaces.addresses_fails.chain fun is => ?_
      refine (p.isFreeOnEach_fails port is).chain fun free => ?_
      cases free with
      | false => exact .pure none
      | true => exact p.claim_fails (Address.wildcard.endpoint port)

/-- The keeper of a stream port is for the address asked for or else for the wildcard. -/
theorem claimStream_answers (port : UInt16) (address : Option Address) :
    Answers (p.claimStream port address)
      fun kept => ∀ keeper ∈ kept, p.Gives ((address.getD .wildcard).endpoint port) keeper := by
  have hnone : Answers (pure none : Probing Host (Option Keeper))
      fun kept => ∀ keeper ∈ kept, p.Gives ((address.getD .wildcard).endpoint port) keeper := by
    intro w kept w' hrun
    cases hrun
    simp
  cases address with
  | some address => exact p.claim_answers (address.endpoint port)
  | none =>
    change Answers (p.claimEverywhere port) _
    rw [claimEverywhere_eq]
    refine .chain fun free => ?_
    cases free with
    | false => exact hnone
    | true => exact p.claim_answers (Address.wildcard.endpoint port)

end Prober

end PortWarden
