import PortWarden.Proofs.Run

/-!
# Accounting for sockets

Whatever fails on the way, a question closes each socket that it created exactly once before it
ends, except for one that it hands out in a keeper. Over a run the open sockets are those of the
keepers and listeners of the session; every other socket was closed, once, by the question that
created it or when its owner gave it up.
-/

namespace PortWarden

/-- What the record shows of a question. -/
structure Host.Settles (h h' : Host) (left : List Socket) : Prop where
  /-- The sockets that were open before are as they were, beside those left. -/
  sockets : h'.sockets = left ++ h.sockets
  /-- The calls made create different sockets, and close each of them once or leave it. -/
  calls : ∃ made, h'.trace = made ++ h.trace ∧ (openedBy made).Nodup ∧
    (closedBy made ++ left.map Socket.id).Perm (openedBy made)

/-- A question that leaves a balanced host settles. -/
theorem Host.Leaves.settles {h h' : Host} {left : List Socket} (hb : h.Balanced)
    (hleaves : h.Leaves h' left) : h.Settles h' left := by
  obtain ⟨made, hmade⟩ := hleaves.calls
  have hopened : openedBy h'.trace = openedBy made ++ openedBy h.trace := by
    rw [← hmade, openedBy, List.filterMap_append, ← openedBy, ← openedBy]
  have hclosed : closedBy h'.trace = closedBy made ++ closedBy h.trace := by
    rw [← hmade, closedBy, List.filterMap_append, ← closedBy, ← closedBy]
  have hids : h'.ids = left.map Socket.id ++ h.ids := by
    simp only [ids, hleaves.sockets, List.map_append]
  refine ⟨hleaves.sockets, made, hmade.symm, ?_, ?_⟩
  · have hdistinct := hleaves.balanced.distinct
    rw [hopened] at hdistinct
    exact (List.nodup_append.mp hdistinct).1
  · have haccounts := hleaves.balanced.accounts
    rw [hopened, hclosed, hids] at haccounts
    have hregrouped : ((closedBy made ++ left.map Socket.id) ++ (closedBy h.trace ++ h.ids)).Perm
        (openedBy made ++ openedBy h.trace) := by
      refine List.Perm.trans ?_ haccounts
      simp only [List.append_assoc]
      exact (List.perm_append_comm_assoc _ _ _).append_left _
    exact (List.perm_append_right_iff _).mp
      (hregrouped.trans (hb.accounts.symm.append_left (openedBy made)))

/-- Every question that a service can be asked settles, with an answer or a failure. Only a claim
leaves a socket, which listens on its address, or else on the wildcard, and on the port of the
keeper; and only the workaround for link-local addresses gives a keeper without a socket. Questions
on the configured address are among these. -/
structure Service.Settles (service : Service) (w : World Host) : Prop where
  /-- Checking a port leaves nothing. -/
  isAvailable : ∀ port protocol address,
    w.host.Settles (service.isAvailable port protocol address w).2.host []
  /-- Claiming a port leaves what the keeper holds. -/
  keep : ∀ port protocol address,
    w.host.Settles (service.keep port protocol address w).2.host
      (leftBy (keptAt ((address.getD .wildcard).endpoint port))
        (service.keep port protocol address w).1)
  /-- The keeper is for the port claimed. -/
  kept : ∀ port protocol address, Answers (service.keep port protocol address) fun kept =>
    ∀ keeper ∈ kept, service.prober.Gives ((address.getD .wildcard).endpoint port) keeper
  /-- Searching a port leaves nothing. -/
  randomPort : ∀ fuel protocol address membership,
    w.host.Settles (service.randomPort fuel protocol address membership w).2.host []
  /-- Searching a port to keep leaves what the keeper holds. -/
  randomKeeper : ∀ fuel protocol address membership,
    w.host.Settles (service.randomKeeper fuel protocol address membership w).2.host
      (leftBy (fun keeper =>
          keptAt ((address.getD .wildcard).endpoint keeper.port) (some keeper))
        (service.randomKeeper fuel protocol address membership w).1)
  /-- The keeper is for the address asked for. -/
  randomKept : ∀ fuel protocol address membership,
    Answers (service.randomKeeper fuel protocol address membership) fun keeper =>
      service.prober.Gives ((address.getD .wildcard).endpoint keeper.port) keeper
  /-- Searching a given range leaves nothing. -/
  randomPortInRange : ∀ fuel lower upper protocol address,
    w.host.Settles
      (service.allocator.randomPortInRange fuel lower upper protocol address w).2.host []

/-- Every question settles on a balanced host. -/
theorem Service.settles (service : Service) {w : World Host} (hb : w.host.Balanced) :
    service.Settles w where
  isAvailable port protocol address :=
    ((service.isAvailable_leavesOpen port protocol address).leaves_nothing hb).settles hb
  keep port protocol address := (service.keep_leavesOpen port protocol address w hb).settles hb
  kept port protocol address := service.keep_answers port protocol address
  randomPort fuel protocol address membership :=
    ((Allocator.randomPort_leavesOpen service.prober service.generator service.config
      fuel protocol address membership).leaves_nothing hb).settles hb
  randomKeeper fuel protocol address membership :=
    (Allocator.randomKeeper_leavesOpen service.prober service.generator service.config
      fuel protocol address membership w hb).settles hb
  randomKept fuel protocol address membership :=
    Allocator.randomKeeper_answers service.prober service.generator service.config
      fuel protocol address membership
  randomPortInRange fuel lower upper protocol address :=
    ((Allocator.randomPortInRange_leavesOpen service.prober service.generator service.config
      fuel lower upper protocol address).leaves_nothing hb).settles hb

namespace Session

/-- How the owners in a session give their sockets up. -/
structure Disposes (s : Session) : Prop where
  /-- Releasing a keeper closes its socket, if it has one, and it has none afterwards. To release it
  again does nothing. -/
  release : ∀ fuel name keeper, s.keepers.lookup name = some keeper →
    let t := (s.step fuel (.release name)).2
    closedBy t.world.host.trace = keeper.socket.toList ++ closedBy s.world.host.trace ∧
      t.keepers.lookup name = some { keeper with socket := none } ∧
      (t.step fuel (.release name)).2 = t
  /-- Dropping a name closes the socket of its keeper and then its listener. -/
  drop : ∀ fuel name,
    let t := (s.step fuel (.drop name)).2
    closedBy t.world.host.trace = (s.listeners.lookup name).toList ++
        (((s.keepers.lookup name).bind (·.socket)).toList ++ closedBy s.world.host.trace) ∧
      t.keepers.lookup name = none ∧ t.listeners.lookup name = none
  /-- Taking the listener out of a keeper ends the keeper and does not close the socket; only an
  older listener of the name is dropped. -/
  takeListener : ∀ fuel name keeper id, s.keepers.lookup name = some keeper →
    keeper.socket = some id →
    let t := (s.step fuel (.takeListener name)).2
    closedBy t.world.host.trace =
        (s.listeners.lookup name).toList ++ closedBy s.world.host.trace ∧
      t.keepers.lookup name = none ∧ t.listeners.lookup name = some id
  /-- There is nothing to take out of a keeper without a socket, and nothing is closed. -/
  takeNothing : ∀ fuel name keeper, s.keepers.lookup name = some keeper → keeper.socket = none →
    let t := (s.step fuel (.takeListener name)).2
    t.world = s.world ∧ t.listeners = s.listeners ∧ t.keepers.lookup name = none

/-- Dropping a keeper closes its socket. -/
theorem closedBy_dropKeeper (s : Session) (name : String) :
    closedBy (s.dropKeeper name).world.host.trace =
      ((s.keepers.lookup name).bind (·.socket)).toList ++ closedBy s.world.host.trace := by
  unfold dropKeeper
  rcases s.keepers.lookup name with _ | ⟨port, _ | id⟩ <;> rfl

/-- Dropping a listener closes it. -/
theorem closedBy_dropListener (s : Session) (name : String) :
    closedBy (s.dropListener name).world.host.trace =
      (s.listeners.lookup name).toList ++ closedBy s.world.host.trace := by
  unfold dropListener
  rcases s.listeners.lookup name with _ | id <;> rfl

/-- Dropping a keeper does not touch the listeners. -/
theorem listeners_dropKeeper (s : Session) (name : String) :
    (s.dropKeeper name).listeners = s.listeners := by
  unfold dropKeeper
  rcases s.keepers.lookup name with _ | keeper <;> rfl

/-- Dropping a listener does not touch the keepers. -/
theorem keepers_dropListener (s : Session) (name : String) :
    (s.dropListener name).keepers = s.keepers := by
  unfold dropListener
  rcases s.listeners.lookup name with _ | id <;> rfl

/-- A dropped keeper is no longer found. -/
theorem lookup_dropKeeper (s : Session) (name : String) :
    (s.dropKeeper name).keepers.lookup name = none := by
  unfold dropKeeper
  cases hfound : s.keepers.lookup name with
  | none => exact hfound
  | some keeper => exact lookup_without name s.keepers

/-- A dropped listener is no longer found. -/
theorem lookup_dropListener (s : Session) (name : String) :
    (s.dropListener name).listeners.lookup name = none := by
  unfold dropListener
  cases hfound : s.listeners.lookup name with
  | none => exact hfound
  | some id => exact lookup_without name s.listeners

/-- The session after a keeper was released. -/
theorem step_release {s : Session} {name : String} {keeper : Keeper}
    (hfound : s.keepers.lookup name = some keeper) (fuel : Nat) :
    (s.step fuel (.release name)).2 =
      { s with
        keepers := (name, { keeper with socket := none }) :: without name s.keepers
        world := { s.world with toLogged := keeper.drop s.world.toLogged } } := by
  simp only [step, hfound, ← keeper.release_fst s.world.toLogged]
  rfl

/-- The session after the listener was taken out of a keeper that had one. -/
theorem step_takeListener {s : Session} {name : String} {keeper : Keeper} {id : SocketId}
    (hfound : s.keepers.lookup name = some keeper) (hsocket : keeper.socket = some id)
    (fuel : Nat) :
    (s.step fuel (.takeListener name)).2 =
      ({ s with keepers := without name s.keepers }).storeListener name id := by
  simp only [step, hfound, hsocket]

/-- Owners give up each socket once, in whatever state a session is. -/
theorem disposes (s : Session) : s.Disposes where
  release fuel name keeper hfound := by
    intro t
    have ht : t = _ := step_release hfound fuel
    have hlookup : t.keepers.lookup name = some { keeper with socket := none } := by
      rw [ht]
      exact List.lookup_cons_self
    refine ⟨?_, hlookup, ?_⟩
    · rw [ht]
      obtain ⟨port, _ | id⟩ := keeper <;> rfl
    · rw [step_release hlookup, ht]
      simp [without, Keeper.drop, Keeper.release]
  drop fuel name := by
    intro t
    have ht : t = (s.dropKeeper name).dropListener name := rfl
    rw [ht, closedBy_dropListener, closedBy_dropKeeper, listeners_dropKeeper, keepers_dropListener]
    exact ⟨rfl, lookup_dropKeeper s name, lookup_dropListener _ name⟩
  takeListener fuel name keeper id hfound hsocket := by
    intro t
    have ht : t = _ := step_takeListener hfound hsocket fuel
    rw [ht]
    simp only [storeListener, keepers_dropListener]
    refine ⟨closedBy_dropListener _ name, lookup_without name s.keepers, ?_⟩
    exact List.lookup_cons_self
  takeNothing fuel name keeper hfound hsocket := by
    intro t
    have ht : t = { s with keepers := without name s.keepers } := by
      simp only [t, step, hfound, hsocket]
    rw [ht]
    exact ⟨rfl, rfl, lookup_without name s.keepers⟩

end Session

/-- On a balanced host a socket was closed once if it was created and is not open, and otherwise not
at all. -/
theorem Host.Balanced.count_closed {h : Host} (hb : h.Balanced) (id : SocketId) :
    (closedBy h.trace).count id = if id ∈ openedBy h.trace ∧ id ∉ h.ids then 1 else 0 := by
  by_cases hclosed : id ∈ closedBy h.trace
  · have hopened : id ∈ openedBy h.trace :=
      hb.accounts.subset (List.mem_append_left _ hclosed)
    have hgone : id ∉ h.ids := fun hid => hb.not_closed_of_mem_ids hid hclosed
    rw [if_pos ⟨hopened, hgone⟩]
    exact List.count_eq_one_of_mem hb.nodup_closed hclosed
  · have hnot : ¬(id ∈ openedBy h.trace ∧ id ∉ h.ids) := by
      rintro ⟨hopened, hgone⟩
      rcases List.mem_append.mp (hb.accounts.symm.subset hopened) with hmem | hmem
      · exact hclosed hmem
      · exact hgone hmem
    rw [if_neg hnot]
    exact List.count_eq_zero.mpr hclosed

namespace Session

/-- The sockets of a session are accounted for. -/
structure Accounted (s : Session) : Prop extends s.Disposes where
  /-- Whatever is asked next settles. -/
  settles : ∀ service : Service, service.Settles s.world
  /-- No socket has two owners. -/
  owners : s.owned.Nodup
  /-- The open sockets are those of the keepers and the listeners. -/
  owned : s.owned.Perm s.world.host.ids
  /-- A socket without an owner was closed exactly once, and one with an owner was not. -/
  closed : ∀ id, (closedBy s.world.host.trace).count id =
    if id ∈ openedBy s.world.host.trace ∧ id ∉ s.owned then 1 else 0

/-- Whatever is asked in whatever order, and whichever calls fail on the way, every socket of a
session is accounted for. -/
theorem Reachable.sockets_accounted_for {may : Host → Endpoint → Prop} {s : Session}
    (hs : s.Reachable may) : s.Accounted := by
  obtain ⟨origin, hsound⟩ := hs.sound
  refine ⟨s.disposes, fun service => service.settles hsound.balanced, ?_, hsound.owned, ?_⟩
  · exact hsound.owned.nodup_iff.mpr hsound.balanced.nodup_ids
  · intro id
    have hopen : id ∈ s.owned ↔ id ∈ s.world.host.ids := hsound.owned.mem_iff
    simp only [hsound.balanced.count_closed, hopen]

/-- The socket of a port kept on the loopback address and of one given back are accounted for. -/
theorem sockets_accounted_for_on_loopback :
    let first := (onLoopback.step 0 (.keep "kept" 20001 .stream (some (.v4 .loopback)))).2
    let second := (first.step 0 (.keep "released" 20002 .stream (some (.v4 .loopback)))).2
    let last := (second.step 0 (.release "released")).2
    last.owned = [1] ∧ closedBy last.world.host.trace = [2] ∧ last.Accounted := by
  intro first second last
  have hfirst : Run anywhere onLoopback first :=
    (Run.refl onLoopback).step onLoopback.service 0 trivial
  have hsecond : Run anywhere onLoopback second := hfirst.step first.service 0 trivial
  have hlast : Run anywhere onLoopback last := hsecond.step second.service 0 trivial
  have hreachable : last.Reachable anywhere := ⟨onLoopback, fresh_onLoopback, hlast⟩
  exact ⟨by decide +kernel, by decide +kernel, hreachable.sockets_accounted_for⟩

end Session

end PortWarden
