import PortWarden.Proofs.Search
import PortWarden.Session

/-!
# Who owns the open sockets

Between two questions every open socket has one owner in the session: a keeper that holds it, or the
name under which it was taken out of one. While a session changes hands some sockets are pending:
they are open and nobody's. A session whose owned and pending sockets are the open ones, each once,
is sound.
-/

namespace PortWarden

namespace Session

section

variable {α : Type} {name : String} {table : List (String × α)} {a : α}

/-- The entry of a name and the others make up the table. -/
theorem perm_without (hnames : (table.map (·.1)).Nodup) (hfound : table.lookup name = some a) :
    table.Perm ((name, a) :: without name table) := by
  induction table with
  | nil => cases hfound
  | cons entry rest ih =>
    obtain ⟨key, b⟩ := entry
    rw [List.map_cons, List.nodup_cons] at hnames
    by_cases hkey : key = name
    · subst hkey
      have hvalue : b = a := by simpa using hfound
      have hrest : without key rest = rest := by
        refine List.filter_eq_self.mpr fun other hother => bne_iff_ne.mpr fun hsame => ?_
        exact hnames.1 (List.mem_map.mpr ⟨other, hother, hsame⟩)
      simp [without, ← hvalue, show rest.filter (·.1 != key) = rest from hrest]
    · have hlater : rest.lookup name = some a := by
        simpa [List.lookup_cons, beq_eq_false_iff_ne.mpr (Ne.symm hkey)] using hfound
      have hkept : without name ((key, b) :: rest) = (key, b) :: without name rest := by
        simp [without, hkey]
      rw [hkept]
      exact ((ih hnames.2 hlater).cons _).trans (.swap _ _ _)

/-- A name without an entry is not in the table. -/
theorem not_mem_of_lookup_eq_none (hnone : table.lookup name = none) :
    name ∉ table.map (·.1) := by
  intro hmem
  obtain ⟨entry, hentry, rfl⟩ := List.mem_map.mp hmem
  simpa using List.lookup_eq_none_iff.mp hnone entry hentry

/-- A name taken out of a table is no longer in it. -/
theorem not_mem_without (name : String) (table : List (String × α)) :
    name ∉ (without name table).map (·.1) := by
  simp [without]

/-- Taking a name out of a table leaves the other names different. -/
theorem nodup_without (hnames : (table.map (·.1)).Nodup) (name : String) :
    ((without name table).map (·.1)).Nodup :=
  (List.filter_sublist.map _).nodup hnames

/-- A name is not found in a table without it. -/
@[simp] theorem lookup_without (name : String) (table : List (String × α)) :
    (without name table).lookup name = none := by
  refine List.lookup_eq_none_iff.mpr fun entry hentry => ?_
  have hother : entry.1 ≠ name := bne_iff_ne.mp (List.mem_filter.mp hentry).2
  exact bne_iff_ne.mpr hother.symm

end

/-- The sockets of the keepers and of the listeners. -/
def owned (s : Session) : List SocketId :=
  s.keepers.filterMap (·.2.socket) ++ s.listeners.map (·.2)

end Session

/-- A keeper has no socket, or one that listens on its port. -/
def Keeper.Claims (k : Keeper) (h : Host) : Prop :=
  ∀ id ∈ k.socket, ∃ target, target.port = k.port ∧ Socket.listener id target ∈ h.sockets

/-- A keeper keeps its claim while its socket is open. -/
theorem Keeper.Claims.of_subset {k : Keeper} {h h' : Host} (hclaims : k.Claims h) (hb : h.Balanced)
    (hsockets : h'.sockets ⊆ h.sockets) (hopen : ∀ id ∈ k.socket, id ∈ h'.ids) : k.Claims h' := by
  intro id hid
  obtain ⟨target, hport, hlistener⟩ := hclaims id hid
  obtain ⟨socket, hsocket, hsame⟩ := List.mem_map.mp (hopen id hid)
  have heq : socket = Socket.listener id target :=
    hb.eq_of_id_eq (hsockets hsocket) hlistener hsame
  exact ⟨target, hport, heq ▸ hsocket⟩

namespace Host

variable (may : Host → Endpoint → Prop)

/-- How a host goes on while a session is in use and other programs listen where they may. -/
inductive Goes : Host → Host → Prop
  /-- Nothing happens. -/
  | refl (h : Host) : Goes h h
  /-- A question is asked. -/
  | asks {h m h' : Host} {left : List Socket} : Goes h m → m.Leaves h' left → Goes h h'
  /-- An open socket is closed. -/
  | closes {h m : Host} {id : SocketId} : Goes h m → id ∈ m.ids → Goes h (m.close id)
  /-- Another program starts to listen. -/
  | listens {h m : Host} {target : Endpoint} :
      Goes h m → may m target → Goes h { m with foreign := m.foreign ++ [target] }
  /-- Another program stops listening. -/
  | stops {h m : Host} (target : Endpoint) :
      Goes h m → Goes h { m with foreign := m.foreign.filter (· != target) }

namespace Goes

variable {may : Host → Endpoint → Prop} {h h' : Host}

/-- The host keeps its addresses. -/
theorem assigned_eq (hgoes : Goes may h h') : h'.assigned = h.assigned := by
  induction hgoes with
  | refl => rfl
  | asks _ hleaves ih => exact hleaves.assigned.trans ih
  | closes _ _ ih => exact ih
  | listens _ _ ih => exact ih
  | stops _ _ ih => exact ih

/-- A host without faults gets none. -/
theorem no_faults (hgoes : Goes may h h') (hfaults : h.faults = []) : h'.faults = [] := by
  induction hgoes with
  | refl => exact hfaults
  | asks _ hleaves ih => exact hleaves.no_faults ih
  | closes _ _ ih => exact ih
  | listens _ _ ih => exact ih
  | stops _ _ ih => exact ih

/-- Permanent faults stay. -/
theorem faults_of_steady (hgoes : Goes may h h') (hs : h.Steady) : h'.faults = h.faults := by
  induction hgoes with
  | refl => rfl
  | @asks m _ _ _ hleaves ih =>
    have hm : m.Steady := hs.congr ih
    exact (hleaves.faults hm).trans ih
  | closes _ _ ih => exact ih
  | listens _ _ ih => exact ih
  | stops _ _ ih => exact ih

/-- Numbers given out are not taken back. -/
theorem created_le (hgoes : Goes may h h') : h.created ≤ h'.created := by
  induction hgoes with
  | refl => exact Nat.le_refl _
  | asks _ hleaves ih => exact Nat.le_trans ih hleaves.created
  | closes _ _ ih => exact ih
  | listens _ _ ih => exact ih
  | stops _ _ ih => exact ih

/-- An open socket with an old number has been open all along, and is as it was. -/
theorem mem_sockets_of_old (hgoes : Goes may h h') {s : Socket} (hs : s ∈ h'.sockets)
    (hold : s.id ≤ h.created) : s ∈ h.sockets := by
  induction hgoes with
  | refl => exact hs
  | asks hgoes hleaves ih =>
    rw [hleaves.sockets] at hs
    rcases List.mem_append.mp hs with hnew | hs
    · have hlate := Nat.lt_of_le_of_lt hgoes.created_le (hleaves.fresh s hnew)
      exact absurd hold (Nat.not_le_of_lt hlate)
    · exact ih hs
  | closes _ _ ih => exact ih (mem_sockets_close.mp hs).1
  | listens _ _ ih => exact ih hs
  | stops _ _ ih => exact ih hs

end Goes

end Host

/-- A session that goes on from a host, with every open socket listening and either pending or
owned. -/
structure Session.Sound (may : Host → Endpoint → Prop) (origin : Host) (pending : List SocketId)
    (s : Session) : Prop where
  /-- The host comes from the one at the beginning. -/
  goes : Host.Goes may origin s.world.host
  /-- The books are balanced. -/
  balanced : s.world.host.Balanced
  /-- The pending and the owned sockets are the open ones. -/
  owned : (pending ++ s.owned).Perm s.world.host.ids
  /-- No two keepers have one name. -/
  keeperNames : (s.keepers.map (·.1)).Nodup
  /-- No two listeners have one name. -/
  listenerNames : (s.listeners.map (·.1)).Nodup
  /-- Every open socket listens. -/
  listening : ∀ socket ∈ s.world.host.sockets, ∃ target, socket = Socket.listener socket.id target
  /-- The keepers have the sockets that they claim. -/
  claims : ∀ entry ∈ s.keepers, entry.2.Claims s.world.host

namespace Session

/-- After a keeper is dropped its name is free. -/
theorem name_free_of_dropKeeper (s : Session) (name : String) :
    name ∉ (s.dropKeeper name).keepers.map (·.1) := by
  unfold Session.dropKeeper
  cases hfound : s.keepers.lookup name with
  | none => exact not_mem_of_lookup_eq_none hfound
  | some keeper => exact not_mem_without name s.keepers

/-- After a listener is dropped its name is free. -/
theorem name_free_of_dropListener (s : Session) (name : String) :
    name ∉ (s.dropListener name).listeners.map (·.1) := by
  unfold Session.dropListener
  cases hfound : s.listeners.lookup name with
  | none => exact not_mem_of_lookup_eq_none hfound
  | some id => exact not_mem_without name s.listeners

/-- Dropping a keeper opens no socket. -/
theorem sockets_dropKeeper (s : Session) (name : String) :
    (s.dropKeeper name).world.host.sockets ⊆ s.world.host.sockets := by
  unfold Session.dropKeeper
  rcases s.keepers.lookup name with _ | ⟨port, _ | id⟩
  · exact List.Subset.refl _
  · exact List.Subset.refl _
  · exact List.filter_subset_self _

/-- Dropping a keeper is nothing to other programs. -/
theorem foreign_dropKeeper (s : Session) (name : String) :
    (s.dropKeeper name).world.host.foreign = s.world.host.foreign := by
  unfold Session.dropKeeper
  rcases s.keepers.lookup name with _ | ⟨port, _ | id⟩ <;> rfl

end Session

namespace Session.Sound

variable {may : Host → Endpoint → Prop} {origin : Host} {pending : List SocketId} {s : Session}

/-- Only the tables and the host have a say in whether a session is sound. -/
theorem congr {t : Session} (hs : s.Sound may origin pending) (hkeepers : t.keepers = s.keepers)
    (hlisteners : t.listeners = s.listeners) (hhost : t.world.host = s.world.host) :
    t.Sound may origin pending where
  goes := hhost ▸ hs.goes
  balanced := hhost ▸ hs.balanced
  owned := by
    rw [Session.owned, hkeepers, hlisteners, hhost]
    exact hs.owned
  keeperNames := hkeepers ▸ hs.keeperNames
  listenerNames := hlisteners ▸ hs.listenerNames
  listening := hhost ▸ hs.listening
  claims := by
    rw [hkeepers, hhost]
    exact hs.claims

/-- A pending socket is open. -/
theorem mem_ids {id : SocketId} (hs : s.Sound may origin (id :: pending)) :
    id ∈ s.world.host.ids :=
  hs.owned.subset (.head _)

/-- A pending socket is closed, and is nobody's afterwards. -/
theorem close {id : SocketId} (hs : s.Sound may origin (id :: pending)) :
    (s.withHost (·.close id)).Sound may origin pending where
  goes := hs.goes.closes hs.mem_ids
  balanced := hs.balanced.close hs.mem_ids
  owned := by
    have hnodup : (id :: (pending ++ s.owned)).Nodup :=
      hs.owned.nodup_iff.mpr hs.balanced.nodup_ids
    have hrest : (id :: (pending ++ s.owned)).filter (· != id) = pending ++ s.owned := by
      rw [List.filter_cons_of_neg (by simp), List.filter_eq_self]
      intro other hother
      refine bne_iff_ne.mpr ?_
      rintro rfl
      exact (List.nodup_cons.mp hnodup).1 hother
    have hopen := hs.owned.filter (· != id)
    rw [List.cons_append, hrest, ← Host.ids_close] at hopen
    exact hopen
  keeperNames := hs.keeperNames
  listenerNames := hs.listenerNames
  listening socket hsocket := hs.listening socket (Host.mem_sockets_close.mp hsocket).1
  claims := by
    intro entry hentry other hother
    obtain ⟨target, hport, hopen⟩ := hs.claims entry hentry other hother
    refine ⟨target, hport, Host.mem_sockets_close.mpr ⟨hopen, ?_⟩⟩
    rintro rfl
    have hnodup : (other :: (pending ++ s.owned)).Nodup :=
      hs.owned.nodup_iff.mpr hs.balanced.nodup_ids
    have howned : other ∈ s.owned :=
      List.mem_append_left _ (List.mem_filterMap.mpr ⟨entry, hentry, hother⟩)
    exact (List.nodup_cons.mp hnodup).1 (List.mem_append_right _ howned)

/-- A keeper is dropped, and its socket is closed. -/
theorem drop {keeper : Keeper} (hs : s.Sound may origin (keeper.socket.toList ++ pending)) :
    (s.withLogged keeper.drop).Sound may origin pending := by
  obtain ⟨port, _ | id⟩ := keeper
  · exact hs
  · have hpending : s.Sound may origin (id :: pending) := hs
    exact hpending.close.congr rfl rfl rfl

/-- The socket of a keeper that is taken off the table is pending. -/
theorem without_keeper (hs : s.Sound may origin pending) {name : String} {keeper : Keeper}
    (hfound : s.keepers.lookup name = some keeper) :
    ({ s with keepers := without name s.keepers }).Sound may origin
      (keeper.socket.toList ++ pending) where
  goes := hs.goes
  balanced := hs.balanced
  owned := by
    have hperm := (perm_without hs.keeperNames hfound).filterMap (·.2.socket)
    have hsplit : s.owned.Perm
        (keeper.socket.toList ++ ({ s with keepers := without name s.keepers }).owned) := by
      have hcons : ((name, keeper) :: without name s.keepers).filterMap (·.2.socket) =
          keeper.socket.toList ++ (without name s.keepers).filterMap (·.2.socket) := by
        cases hsocket : keeper.socket <;> simp [hsocket]
      rw [hcons] at hperm
      simpa only [Session.owned, List.append_assoc] using hperm.append_right _
    refine .trans ?_ hs.owned
    rw [List.append_assoc]
    refine (List.perm_append_comm_assoc _ _ _).trans ?_
    exact hsplit.symm.append_left pending
  keeperNames := nodup_without hs.keeperNames name
  listenerNames := hs.listenerNames
  listening := hs.listening
  claims entry hentry := hs.claims entry (List.mem_filter.mp hentry).1

/-- The socket of a listener that is taken off the table is pending. -/
theorem without_listener (hs : s.Sound may origin pending) {name : String} {id : SocketId}
    (hfound : s.listeners.lookup name = some id) :
    ({ s with listeners := without name s.listeners }).Sound may origin (id :: pending) where
  goes := hs.goes
  balanced := hs.balanced
  owned := by
    have hperm := (perm_without hs.listenerNames hfound).map (·.2)
    have hsplit : s.owned.Perm
        (id :: ({ s with listeners := without name s.listeners }).owned) :=
      (hperm.append_left _).trans List.perm_middle
    refine .trans ?_ hs.owned
    exact List.perm_middle.symm.trans (hsplit.symm.append_left pending)
  keeperNames := hs.keeperNames
  listenerNames := nodup_without hs.listenerNames name
  listening := hs.listening
  claims := hs.claims

/-- A keeper is put on the table, and owns its socket. -/
theorem insert_keeper {name : String} {keeper : Keeper}
    (hs : s.Sound may origin (keeper.socket.toList ++ pending))
    (hname : name ∉ s.keepers.map (·.1)) (hclaims : keeper.Claims s.world.host) :
    ({ s with keepers := (name, keeper) :: s.keepers }).Sound may origin pending where
  goes := hs.goes
  balanced := hs.balanced
  owned := by
    have hcons : ({ s with keepers := (name, keeper) :: s.keepers }).owned =
        keeper.socket.toList ++ s.owned := by
      cases hsocket : keeper.socket <;> simp [Session.owned, hsocket]
    rw [hcons]
    refine .trans ?_ hs.owned
    rw [List.append_assoc]
    exact List.perm_append_comm_assoc _ _ _
  keeperNames := List.nodup_cons.mpr ⟨hname, hs.keeperNames⟩
  listenerNames := hs.listenerNames
  listening := hs.listening
  claims := List.forall_mem_cons.mpr ⟨hclaims, hs.claims⟩

/-- A listener is put on the table, and owns its socket. -/
theorem insert_listener {name : String} {id : SocketId} (hs : s.Sound may origin (id :: pending))
    (hname : name ∉ s.listeners.map (·.1)) :
    ({ s with listeners := (name, id) :: s.listeners }).Sound may origin pending where
  goes := hs.goes
  balanced := hs.balanced
  owned := by
    refine .trans ?_ hs.owned
    exact (List.perm_middle.append_left pending).trans List.perm_middle
  keeperNames := hs.keeperNames
  listenerNames := List.nodup_cons.mpr ⟨hname, hs.listenerNames⟩
  listening := hs.listening
  claims := hs.claims

/-- What is dropped with the keeper of a name is closed. -/
theorem dropKeeper (hs : s.Sound may origin pending) (name : String) :
    (s.dropKeeper name).Sound may origin pending := by
  unfold Session.dropKeeper
  cases hfound : s.keepers.lookup name with
  | none => exact hs
  | some keeper => exact (hs.without_keeper hfound).drop

/-- What is dropped with the listener of a name is closed. -/
theorem dropListener (hs : s.Sound may origin pending) (name : String) :
    (s.dropListener name).Sound may origin pending := by
  unfold Session.dropListener
  cases hfound : s.listeners.lookup name with
  | none => exact hs
  | some id => exact (hs.without_listener hfound).close

/-- A pending keeper is stored under a name. -/
theorem storeKeeper {keeper : Keeper} (hs : s.Sound may origin (keeper.socket.toList ++ pending))
    (hclaims : keeper.Claims s.world.host) (name : String) :
    (s.storeKeeper name keeper).Sound may origin pending := by
  have hdropped := hs.dropKeeper name
  refine hdropped.insert_keeper (name_free_of_dropKeeper s name) ?_
  refine hclaims.of_subset hs.balanced (sockets_dropKeeper s name) fun id hid => ?_
  refine hdropped.owned.subset (List.mem_append_left _ (List.mem_append_left _ ?_))
  exact Option.mem_toList.mpr hid

/-- A pending listener is stored under a name. -/
theorem storeListener {id : SocketId} (hs : s.Sound may origin (id :: pending)) (name : String) :
    (s.storeListener name id).Sound may origin pending :=
  (hs.dropListener name).insert_listener (name_free_of_dropListener s name)

/-- What a question leaves open is pending. -/
theorem leaves {world : World Host} {left : List Socket} (hs : s.Sound may origin [])
    (hleaves : s.world.host.Leaves world.host left)
    (hlisten : ∀ socket ∈ left, ∃ target, socket = Socket.listener socket.id target) :
    ({ s with world }).Sound may origin (left.map Socket.id) where
  goes := hs.goes.asks hleaves
  balanced := hleaves.balanced
  owned := by
    have hids : world.host.ids = left.map (·.id) ++ s.world.host.ids := by
      simp [Host.ids, hleaves.sockets]
    rw [hids]
    exact hs.owned.append_left _
  keeperNames := hs.keeperNames
  listenerNames := hs.listenerNames
  listening := by
    rw [hleaves.sockets]
    exact List.forall_mem_append.mpr ⟨hlisten, hs.listening⟩
  claims entry hentry id hid := by
    obtain ⟨target, hport, hopen⟩ := hs.claims entry hentry id hid
    exact ⟨target, hport, hleaves.sockets ▸ List.mem_append_right _ hopen⟩

/-- Whatever a session comes from, it is sound from now on. -/
theorem restart (hs : s.Sound may origin pending) : s.Sound may s.world.host pending :=
  ⟨.refl _, hs.balanced, hs.owned, hs.keeperNames, hs.listenerNames, hs.listening, hs.claims⟩

end Session.Sound

end PortWarden
