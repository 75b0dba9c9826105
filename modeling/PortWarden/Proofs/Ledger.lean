import PortWarden.Proofs.Chain
import PortWarden.Proofs.Contention
import Mathlib.Data.List.Nodup

/-!
# The ledger of sockets

The calls on record say which sockets were created and which were closed. On a balanced host the
created sockets are the closed and the open ones, each once. Three relations say how a host goes on:
`Advances` under the program's own calls, `Tends` while one socket is worked on, and `Leaves` from
the beginning of a question to its end.
-/

namespace PortWarden

/-- The socket that a call creates, if it does. -/
def Call.opened? (c : Call) : Option SocketId :=
  match c.action, c.failure with
  | .create .., none => c.socket
  | _, _ => none

/-- The socket that a call closes, if it does. -/
def Call.closed? (c : Call) : Option SocketId :=
  match c.action with
  | .close => c.socket
  | _ => none

/-- A call by which no socket comes or goes, whether it fails or not. -/
def Call.IsWork (call : Call) : Prop :=
  ∀ failure, { call with failure }.opened? = none ∧ { call with failure }.closed? = none

/-- The sockets that calls create. -/
def openedBy (calls : List Call) : List SocketId := calls.filterMap Call.opened?

/-- The sockets that calls close. -/
def closedBy (calls : List Call) : List SocketId := calls.filterMap Call.closed?

/-- The sockets that calls create are created in order. -/
@[simp] theorem openedBy_append (calls more : List Call) :
    openedBy (calls ++ more) = openedBy calls ++ openedBy more :=
  List.filterMap_append

/-- The sockets that calls close are closed in order. -/
@[simp] theorem closedBy_append (calls more : List Call) :
    closedBy (calls ++ more) = closedBy calls ++ closedBy more :=
  List.filterMap_append

/-- Calls that only ask or wait, so that no socket comes or goes. -/
def Quiet (calls : List Call) : Prop :=
  ∀ call ∈ calls, call.opened? = none ∧ call.closed? = none

/-- No socket comes by quiet calls. -/
theorem Quiet.openedBy {calls : List Call} (hquiet : Quiet calls) : openedBy calls = [] :=
  List.filterMap_eq_nil_iff.mpr fun call hcall => (hquiet call hcall).1

/-- No socket goes by quiet calls. -/
theorem Quiet.closedBy {calls : List Call} (hquiet : Quiet calls) : closedBy calls = [] :=
  List.filterMap_eq_nil_iff.mpr fun call hcall => (hquiet call hcall).2

namespace Host

/-- The numbers of the open sockets. -/
def ids (h : Host) : List SocketId := h.sockets.map (·.id)

/-- The books are balanced: every socket created was created once, and has been closed once or is
open. -/
structure Balanced (h : Host) : Prop where
  /-- What was created is what was closed and what is open. -/
  accounts : (closedBy h.trace ++ h.ids).Perm (openedBy h.trace)
  /-- No number was given to two sockets. -/
  distinct : (openedBy h.trace).Nodup
  /-- The numbers of sockets to come are still free. -/
  bounded : ∀ id ∈ openedBy h.trace, id ≤ h.created

/-- Where no call was made and no socket is open, the books are balanced. -/
theorem Balanced.of_untouched {h : Host} (hsockets : h.sockets = []) (htrace : h.trace = []) :
    h.Balanced := by
  constructor <;> simp [ids, hsockets, htrace, openedBy, closedBy]

namespace Balanced

variable {h : Host} (hb : h.Balanced)
include hb

/-- The sockets that are closed or open are different ones. -/
theorem nodup_closed_append_ids : (closedBy h.trace ++ h.ids).Nodup :=
  hb.accounts.nodup_iff.mpr hb.distinct

/-- Open sockets have different numbers. -/
theorem nodup_ids : h.ids.Nodup := (List.nodup_append.mp hb.nodup_closed_append_ids).2.1

/-- No socket was closed twice. -/
theorem nodup_closed : (closedBy h.trace).Nodup :=
  (List.nodup_append.mp hb.nodup_closed_append_ids).1

/-- An open socket has one of the numbers given out. -/
theorem id_le_created {s : Socket} (hs : s ∈ h.sockets) : s.id ≤ h.created :=
  hb.bounded _ (hb.accounts.subset (List.mem_append_right _ (List.mem_map_of_mem hs)))

/-- An open socket was not closed. -/
theorem not_closed_of_mem_ids {id : SocketId} (hid : id ∈ h.ids) : id ∉ closedBy h.trace := by
  intro hclosed
  exact (List.nodup_append.mp hb.nodup_closed_append_ids).2.2 id hclosed id hid rfl

/-- An open socket is known by its number. -/
theorem eq_of_id_eq {s t : Socket} (hs : s ∈ h.sockets) (ht : t ∈ h.sockets) (hid : s.id = t.id) :
    s = t :=
  List.inj_on_of_nodup_map hb.nodup_ids hs ht hid

end Balanced

/-- How a host goes on under the program's own calls. Nothing around it changes, calls are only
added to the record, and permanent faults stay. -/
structure Advances (h h' : Host) : Prop where
  /-- The host keeps its addresses. -/
  assigned : h'.assigned = h.assigned
  /-- Other programs go on listening. -/
  foreign : h'.foreign = h.foreign
  /-- The interfaces stay. -/
  interfaces : h'.interfaces = h.interfaces
  /-- Calls are added to the record. -/
  calls : h.trace <:+ h'.trace
  /-- Permanent faults are not counted down. -/
  faults : h.Steady → h'.faults = h.faults

/-- Nothing happens. -/
theorem Advances.refl (h : Host) : h.Advances h :=
  ⟨rfl, rfl, rfl, List.suffix_rfl, fun _ => rfl⟩

/-- Calls follow calls. -/
theorem Advances.trans {h m h' : Host} (hfirst : h.Advances m) (hrest : m.Advances h') :
    h.Advances h' where
  assigned := hrest.assigned.trans hfirst.assigned
  foreign := hrest.foreign.trans hfirst.foreign
  interfaces := hrest.interfaces.trans hfirst.interfaces
  calls := hfirst.calls.trans hrest.calls
  faults hs := by
    have hm : m.Steady := hs.congr (hfirst.faults hs)
    exact (hrest.faults hm).trans (hfirst.faults hs)

/-- A host without faults gets none. -/
theorem Advances.no_faults {h h' : Host} (hadvances : h.Advances h') (hfaults : h.faults = []) :
    h'.faults = [] :=
  (hadvances.faults (.of_no_faults hfaults)).trans hfaults

/-- A host on which work is done on one socket. No socket is created or closed, and the other open
ones are not touched. -/
structure Tends (id : SocketId) (h h' : Host) : Prop extends h.Advances h' where
  /-- No number is given out. -/
  created : h'.created = h.created
  /-- The same sockets are open. -/
  ids : h'.ids = h.ids
  /-- The other sockets are as they were. -/
  others : h'.sockets.filter (·.id != id) = h.sockets.filter (·.id != id)
  /-- The record shows no new socket. -/
  opened : openedBy h'.trace = openedBy h.trace
  /-- The record shows no closed socket. -/
  closed : closedBy h'.trace = closedBy h.trace

namespace Tends

variable {id : SocketId} {h m h' : Host}

/-- Nothing happens. -/
theorem refl (id : SocketId) (h : Host) : h.Tends id h where
  toAdvances := .refl h
  created := rfl
  ids := rfl
  others := rfl
  opened := rfl
  closed := rfl

/-- Work follows work. -/
theorem trans (hfirst : h.Tends id m) (hrest : m.Tends id h') : h.Tends id h' where
  toAdvances := hfirst.toAdvances.trans hrest.toAdvances
  created := hrest.created.trans hfirst.created
  ids := hrest.ids.trans hfirst.ids
  others := hrest.others.trans hfirst.others
  opened := hrest.opened.trans hfirst.opened
  closed := hrest.closed.trans hfirst.closed

/-- Work leaves the books balanced. -/
theorem balanced (htends : h.Tends id h') (hb : h.Balanced) : h'.Balanced where
  accounts := by simpa only [htends.opened, htends.closed, htends.ids] using hb.accounts
  distinct := by simpa only [htends.opened] using hb.distinct
  bounded := by simpa only [htends.opened, htends.created] using hb.bounded

end Tends

/-- Counting a call against the faults touches no socket. -/
theorem tends_strike (id : SocketId) (h : Host) (operation : Operation) (site : Option CallSite) :
    h.Tends id (h.strike operation site).2 where
  assigned := rfl
  foreign := rfl
  interfaces := rfl
  calls := List.suffix_rfl
  faults hs := by rw [strike_of_steady hs]
  created := rfl
  ids := rfl
  others := rfl
  opened := rfl
  closed := rfl

/-- Putting a call on record touches no socket. -/
theorem tends_record (id : SocketId) (h : Host) {call : Call} (hopened : call.opened? = none)
    (hclosed : call.closed? = none) : h.Tends id (h.record call) where
  assigned := rfl
  foreign := rfl
  interfaces := rfl
  calls := List.suffix_cons _ _
  faults _ := rfl
  created := rfl
  ids := rfl
  others := rfl
  opened := by simp [openedBy, record, hopened]
  closed := by simp [closedBy, record, hclosed]

/-- A change of one socket that keeps its number does not touch the others. -/
theorem tends_update (id : SocketId) (h : Host) {change : Socket → Socket}
    (hchange : ∀ s, (change s).id = s.id) : h.Tends id (h.update id change) where
  assigned := rfl
  foreign := rfl
  interfaces := rfl
  calls := List.suffix_rfl
  faults _ := rfl
  created := rfl
  ids := by
    simp only [ids, update, List.map_map]
    refine List.map_congr_left fun s _ => ?_
    simp only [Function.comp_apply]
    split <;> simp [hchange]
  others := by
    simp only [update]
    induction h.sockets with
    | nil => rfl
    | cons s rest ih =>
      by_cases hid : s.id = id <;> simp [hid, hchange, ih]
  opened := rfl
  closed := rfl

/-- A chain of calls that touches no socket but one. -/
def WorksOn {α : Type} (id : SocketId) (calls : SystemCall α) : Prop :=
  ∀ h : Host, h.Tends id (calls h).2

/-- Chains that touch one socket make a longer chain that touches no other. -/
theorem WorksOn.chain {α β : Type} {id : SocketId} {calls : SystemCall α}
    {next : α → SystemCall β} (hcalls : WorksOn id calls) (hnext : ∀ a, WorksOn id (next a)) :
    WorksOn id (calls >>= next) := by
  intro h
  have hfirst := hcalls h
  rw [chain_apply]
  rcases hrun : calls h with ⟨_ | a, m⟩ <;> rw [hrun] at hfirst
  · exact hfirst
  · exact hfirst.trans (hnext a m)

/-- A call that at most changes one socket touches no other. -/
theorem worksOn_perform {id : SocketId} {operation : Operation} {site : Option CallSite}
    {call : Call} {effect : Host → Host} (hcall : Call.IsWork call)
    (heffect : ∀ h : Host, h.Tends id (effect h)) :
    WorksOn id (perform operation site call effect) := by
  intro h
  have hstrike := tends_strike id h operation site
  simp only [perform]
  rcases hrun : h.strike operation site with ⟨_ | errno, m⟩ <;> rw [hrun] at hstrike
  · exact (hstrike.trans (heffect m)).trans
      (tends_record id _ (hcall call.failure).1 (hcall call.failure).2)
  · exact hstrike.trans (tends_record id m (hcall _).1 (hcall _).2)

/-- Letting a socket take an address soon again touches no other. -/
theorem worksOn_reuseAddress (id : SocketId) : WorksOn id (reuseAddress id) :=
  worksOn_perform (fun _ => ⟨rfl, rfl⟩) (.refl id)

/-- Limiting how long a socket waits touches no other. -/
theorem worksOn_setTimeout (id : SocketId) (milliseconds : Nat) :
    WorksOn id (setTimeout id milliseconds) :=
  worksOn_perform (fun _ => ⟨rfl, rfl⟩) (.refl id)

/-- Binding a socket touches no other. -/
theorem worksOn_bind (id : SocketId) (kind : SocketKind) (target : Endpoint) :
    WorksOn id (bind id kind target) := by
  intro h
  have hstrike := tends_strike id h .bind (some target.site)
  simp only [bind]
  rcases hrun : h.strike .bind (some target.site) with ⟨fault, m⟩
  rw [hrun] at hstrike
  dsimp only
  cases fault.or (m.bindFault? kind target) with
  | none =>
    refine (hstrike.trans (tends_update id m fun _ => ?_)).trans (tends_record id _ ?_ ?_) <;> rfl
  | some errno => exact hstrike.trans (tends_record id m rfl rfl)

/-- Listening on a socket touches no other. -/
theorem worksOn_listen (id : SocketId) (backlog : Nat) : WorksOn id (listen id backlog) := by
  intro h
  refine worksOn_perform (fun _ => ⟨?_, ?_⟩) (fun m => tends_update id m fun _ => ?_) h <;> rfl

/-- Choosing the interface of a socket touches no other. -/
theorem worksOn_setMulticastInterface (id : SocketId) (interface : IPv4) :
    WorksOn id (setMulticastInterface id interface) :=
  worksOn_perform (fun _ => ⟨rfl, rfl⟩) (.refl id)

/-- Joining an IPv4 group with a socket touches no other. -/
theorem worksOn_joinOnInterface (id : SocketId) (group interface : IPv4) :
    WorksOn id (joinOnInterface id group interface) :=
  worksOn_perform (fun _ => ⟨rfl, rfl⟩) (.refl id)

/-- Joining an IPv6 group with a socket touches no other. -/
theorem worksOn_joinOnIndex (id : SocketId) (group : IPv6) (index : Nat) :
    WorksOn id (joinOnIndex id group index) :=
  worksOn_perform (fun _ => ⟨rfl, rfl⟩) (.refl id)

/-- Sending on a socket touches no other. -/
theorem worksOn_send (id : SocketId) (payload : List UInt8) (target : Endpoint) :
    WorksOn id (send id payload target) :=
  worksOn_perform (fun _ => ⟨rfl, rfl⟩) fun m => tends_update id m fun _ => rfl

/-- Waiting on a socket touches none. -/
theorem worksOn_receive (id : SocketId) : WorksOn id (receive id) := by
  intro h
  have hstrike := tends_strike id h .receive ((h.socket? id >>= (·.destination)).map Endpoint.site)
  simp only [receive]
  rcases hrun : h.strike .receive ((h.socket? id >>= (·.destination)).map Endpoint.site) with
    ⟨_ | errno, m⟩ <;> rw [hrun] at hstrike <;> dsimp only
  · split <;> exact hstrike.trans (tends_record id m rfl rfl)
  · exact hstrike.trans (tends_record id m rfl rfl)

/-- The host with one more socket, which is the youngest. -/
def withSocket (h : Host) (family : Family) (kind : SocketKind) : Host :=
  let socket : Socket := { id := h.created + 1, family, kind }
  { h with created := h.created + 1, sockets := socket :: h.sockets }.record
    ⟨some (h.created + 1), .create family kind, none⟩

/-- Creating a socket fails by a fault, or gives the host one more. -/
theorem create_apply (family : Family) (kind : SocketKind) (h : Host) :
    create family kind h =
      match h.strike .create none with
      | (some errno, m) => (.error errno, m.record ⟨none, .create family kind, some errno⟩)
      | (none, m) => (.ok (m.created + 1), m.withSocket family kind) := rfl

/-- A new socket leaves the books balanced. -/
theorem Balanced.withSocket {h : Host} (hb : h.Balanced) (family : Family) (kind : SocketKind) :
    (h.withSocket family kind).Balanced where
  accounts := List.perm_middle.trans (hb.accounts.cons (h.created + 1))
  distinct := by
    refine List.nodup_cons.mpr ⟨fun hmem => ?_, hb.distinct⟩
    have hle : h.created + 1 ≤ h.created := hb.bounded _ hmem
    omega
  bounded := by
    intro id hid
    change id ≤ h.created + 1
    rcases List.mem_cons.mp hid with rfl | hid
    · exact Nat.le_refl _
    · exact Nat.le_succ_of_le (hb.bounded id hid)

/-- A closed socket is no longer among the open ones. -/
theorem ids_close (h : Host) (id : SocketId) : (h.close id).ids = h.ids.filter (· != id) := by
  simp [ids, close, record, List.filter_map, Function.comp_def]

/-- Closing an open socket leaves the books balanced. -/
theorem Balanced.close {h : Host} (hb : h.Balanced) {id : SocketId} (hid : id ∈ h.ids) :
    (h.close id).Balanced where
  accounts := by
    rw [ids_close, ← hb.nodup_ids.erase_eq_filter]
    change (id :: closedBy h.trace ++ h.ids.erase id).Perm (openedBy h.trace)
    refine List.perm_middle.symm.trans (List.Perm.trans ?_ hb.accounts)
    exact (List.perm_cons_erase hid).symm.append_left _
  distinct := hb.distinct
  bounded := hb.bounded

end Host

end PortWarden
