import PortWarden.Proofs.Asking

/-!
# Verdicts on multicast ports under permanent faults

On a host whose faults are permanent it is settled beforehand what a check of a multicast port comes
to: by the faults that the calls meet on the way to the message, and after that by who answers in
the group. The sockets of the program have no part in it, so a check comes to the same however many
ports were checked before.
-/

namespace PortWarden

/-- What a chain of calls comes to that has met an error or none. -/
def passing : Option Errno → Except Errno Unit
  | some errno => .error errno
  | none => .ok ()

/-- A chain of calls of which the faults of a steady host decide whether it passes. -/
structure DecidedBy (fault? : Host → Option Errno) (calls : SystemCall Unit) : Prop where
  /-- Nothing but the faults is taken into account. -/
  congr : ∀ h h' : Host, h'.faults = h.faults → fault? h' = fault? h
  /-- The faults stay. -/
  faults : ∀ h : Host, h.Steady → (calls h).2.faults = h.faults
  /-- The calls pass if they meet no error. -/
  result : ∀ h : Host, h.Steady → (calls h).1 = passing (fault? h)

namespace DecidedBy

/-- The first error decides a chain. -/
theorem chain {fault? fault'? : Host → Option Errno} {calls more : SystemCall Unit}
    (hfirst : DecidedBy fault? calls) (hrest : DecidedBy fault'? more) :
    DecidedBy (fun h => (fault? h).or (fault'? h)) (calls >>= fun _ => more) := by
  have hsteps (h : Host) (hs : h.Steady) :
      ((calls >>= fun _ => more) h).2.faults = h.faults ∧
        ((calls >>= fun _ => more) h).1 = passing ((fault? h).or (fault'? h)) := by
    have hfaults := hfirst.faults h hs
    have hresult := hfirst.result h hs
    rw [chain_apply]
    rcases hrun : calls h with ⟨result, m⟩
    rw [hrun] at hfaults hresult
    obtain rfl := hresult
    change m.faults = h.faults at hfaults
    cases fault? h with
    | some errno => exact ⟨hfaults, rfl⟩
    | none =>
      have hm : m.Steady := hs.congr hfaults
      rw [← hrest.congr h m hfaults]
      exact ⟨(hrest.faults m hm).trans hfaults, hrest.result m hm⟩
  exact {
    congr := fun h h' hsame => by
      simp only [hfirst.congr h h' hsame, hrest.congr h h' hsame]
    faults := fun h hs => (hsteps h hs).1
    result := fun h hs => (hsteps h hs).2 }

/-- The faults about a call decide it. -/
theorem perform {operation : Operation} {site : Option CallSite} {call : Call}
    {effect : Host → Host} (heffect : ∀ h, (effect h).faults = h.faults) :
    DecidedBy (fun h => h.faultFor? operation site) (Host.perform operation site call effect) where
  congr h h' hsame := by simp only [Host.faultFor?, hsame]
  faults h hs := by
    rw [Host.perform_of_steady hs]
    cases h.faultFor? operation site with
    | some errno => rfl
    | none => exact heffect h
  result h hs := by
    rw [Host.perform_of_steady hs]
    cases h.faultFor? operation site <;> rfl

/-- A socket for messages can be bound to no address in particular unless the faults object. -/
theorem bind_unspecified (id : SocketId) (family : Family) :
    DecidedBy
      (fun h => h.faultFor? .bind (some ((Address.unspecified family).endpoint 0).site))
      (Host.bind id .datagram ((Address.unspecified family).endpoint 0)) := by
  have hrule (h : Host) :
      h.bindFault? .datagram ((Address.unspecified family).endpoint 0) = none := by
    cases family <;> rfl
  constructor
  case congr =>
    intro h h' hsame
    simp only [Host.faultFor?, hsame]
  all_goals
    intro h hs
    rw [Host.bind_of_steady hs, hrule, Option.or_none]
    cases h.faultFor? .bind (some ((Address.unspecified family).endpoint 0).site) <;> rfl

end DecidedBy

namespace Host

/-- Changing a socket changes what is found under its number. -/
theorem socket?_update (h : Host) (id : SocketId) (change : Socket → Socket)
    (hchange : ∀ s, (change s).id = s.id) :
    (h.update id change).socket? id = (h.socket? id).map change := by
  simp only [socket?, update]
  induction h.sockets with
  | nil => rfl
  | cons s rest ih =>
    by_cases hid : s.id = id
    · simp [hid, hchange]
    · simpa [hid] using ih

/-- A socket that is open is found under its number. -/
theorem exists_socket?_of_mem_ids {h : Host} {id : SocketId} (hid : id ∈ h.ids) :
    ∃ s, h.socket? id = some s := by
  obtain ⟨s, hs, rfl⟩ := List.mem_map.mp hid
  refine Option.isSome_iff_exists.mp (List.find?_isSome.mpr ⟨s, hs, ?_⟩)
  exact beq_self_eq_true s.id

/-- Whether a port counts as in use once a message has been sent to it: on a steady host, if waiting
ends in anything but silence. -/
def answersIn (h : Host) (target : Endpoint) : Bool :=
  match h.faultFor? .receive (some target.site) with
  | some errno => !errno.isTimeout
  | none => (h.answerer? target).isSome

/-- Who answers depends on the faults and on those who answer in groups. -/
theorem answersIn_congr {h h' : Host} (hfaults : h'.faults = h.faults)
    (hresponders : h'.responders = h.responders) (target : Endpoint) :
    h'.answersIn target = h.answersIn target := by
  simp only [answersIn, faultFor?, answerer?, hfaults, hresponders]

end Host

namespace Prober

/-- On a steady host it is known beforehand how waiting for the answer to a message ends. -/
theorem awaitAnswer_of_steady {w : Logged Host} (hs : w.state.Steady) {id : SocketId}
    {target : Endpoint} (hsent : (w.state.socket? id >>= (·.destination)) = some target) :
    (awaitAnswer id target w).1 = w.state.answersIn target := by
  simp only [awaitAnswer, Host.receive, hsent, Option.map_some, Host.strike_of_steady hs,
    Host.answersIn]
  cases hfault : w.state.faultFor? .receive (some target.site) with
  | some errno =>
    dsimp only
    cases errno.isTimeout <;> rfl
  | none =>
    simp only [Option.bind_eq_bind, Option.bind_some]
    cases w.state.answerer? target <;> rfl

variable (p : Prober)

/-- The error with which a group cannot be joined on a steady host. -/
def joinFault? (h : Host) (group : Address) : Option Errno :=
  (h.faultFor? .bind (some ((Address.unspecified group.family).endpoint 0).site)).or <|
    match group with
    | .v4 group =>
      let interface := p.options.multicastInterface.getD .unspecified
      (if interface = .unspecified then none
        else h.faultFor? .multicastInterface (some ⟨.v4 interface, 0⟩)).or
        (h.faultFor? .join (some ⟨.v4 group, 0⟩))
    | .v6 group => h.faultFor? .join (some ⟨.v6 group, 0⟩)

/-- The error with which the message cannot be sent through a new socket on a steady host. -/
def sendFault? (h : Host) (target : Endpoint) : Option Errno :=
  (h.faultFor? .reuseAddress none).or <|
    (h.faultFor? .timeout none).or <|
      (p.joinFault? h target.address).or (h.faultFor? .send (some target.site))

/-- The faults decide whether a group can be joined. -/
theorem joinGroup_decidedBy (id : SocketId) (group : Address) :
    DecidedBy (p.joinFault? · group) (p.joinGroup id group) := by
  cases group with
  | v4 group =>
    refine (DecidedBy.bind_unspecified id .inet).chain ?_
    have hjoin (interface : IPv4) :
        DecidedBy (fun h => h.faultFor? .join (some ⟨.v4 group, 0⟩))
          (Host.joinOnInterface id group interface) := .perform fun _ => rfl
    dsimp only
    by_cases hchosen : p.options.multicastInterface.getD .unspecified = .unspecified
    · simp only [if_pos hchosen, Option.none_or]
      exact hjoin _
    · simp only [if_neg hchosen]
      exact DecidedBy.chain (.perform fun _ => rfl) (hjoin _)
  | v6 group =>
    exact (DecidedBy.bind_unspecified id .inet6).chain (.perform fun _ => rfl)

/-- The faults decide whether the message can be sent. -/
theorem sendPing_decidedBy (id : SocketId) (target : Endpoint) :
    DecidedBy (p.sendFault? · target) (p.sendPing id target) :=
  DecidedBy.chain (.perform fun _ => rfl) <|
    DecidedBy.chain (.perform fun _ => rfl) <|
      (p.joinGroup_decidedBy id target.address).chain (.perform fun _ => rfl)

/-- A message that was sent is the last of its socket. -/
theorem destination_of_sendPing {id : SocketId} {target : Endpoint} {h h' : Host}
    (hid : id ∈ h.ids) (hrun : p.sendPing id target h = (.ok (), h')) :
    (h'.socket? id >>= (·.destination)) = some target := by
  obtain ⟨_, h₁, hreuse, hrun⟩ := chain_ok hrun
  obtain ⟨_, h₂, htimeout, hrun⟩ := chain_ok hrun
  obtain ⟨_, h₃, hjoin, hsend⟩ := chain_ok hrun
  have h₁_ids := (Host.worksOn_reuseAddress id h).ids
  have h₂_ids := (Host.worksOn_setTimeout id p.options.timeout.toNat h₁).ids
  have h₃_ids := (p.worksOn_joinGroup id target.address h₂).ids
  rw [hreuse] at h₁_ids
  rw [htimeout] at h₂_ids
  rw [hjoin] at h₃_ids
  have hopen : id ∈ h₃.ids := by rwa [h₃_ids, h₂_ids, h₁_ids]
  obtain ⟨s, hs⟩ := Host.exists_socket?_of_mem_ids hopen
  let send (s : Socket) : Socket := { s with destination := some target }
  have hupdate := Host.socket?_update (h₃.strike .send (some target.site)).2 id send fun _ => rfl
  rw [Host.perform_ok hsend]
  change ((Host.update _ id _).socket? id >>= _) = _
  rw [hupdate]
  change ((h₃.socket? id).map _ >>= _) = _
  rw [hs]
  rfl

/-- What asking in a group comes to on a steady host. -/
def pingResult (h : Host) (target : Endpoint) : Except Errno Bool :=
  match (h.faultFor? .create none).or (p.sendFault? h target) with
  | some errno => .error errno
  | none => .ok (h.answersIn target)

/-- On a steady host it is known beforehand what asking in a group comes to. -/
theorem pingGroup_of_steady (group : Address) (port : UInt16) {w : Logged Host}
    (hs : w.state.Steady) :
    (p.pingGroup (group.endpoint port) w).1 = p.pingResult w.state (group.endpoint port) := by
  let target := group.endpoint port
  let id := w.state.created + 1
  let m := w.state.withSocket target.family .datagram
  simp only [pingGroup, Host.create_apply, Host.strike_of_steady hs, pingResult]
  cases w.state.faultFor? .create none with
  | some errno => rfl
  | none =>
    have hdecided := p.sendPing_decidedBy id target
    have hresult := hdecided.result m hs
    have hfaults := hdecided.faults m hs
    have hresponders := (p.sendPing_callsOnly [] port id (some group) m).responders
    dsimp only
    rw [Option.none_or]
    rcases hrun : p.sendPing (w.state.created + 1) (group.endpoint port)
      (w.state.withSocket (group.endpoint port).family .datagram) with ⟨result, m'⟩
    change (p.sendPing id target m).2.responders = m.responders at hresponders
    rw [hrun] at hresult hfaults hresponders
    obtain rfl := hresult
    -- the new socket takes no part in which fault strikes
    have hsame : p.sendFault? m target = p.sendFault? w.state target := rfl
    rw [hsame] at hrun ⊢
    cases hfault : p.sendFault? w.state target with
    | some errno => rfl
    | none =>
      rw [hfault] at hrun
      have hsent := p.destination_of_sendPing (.head _) hrun
      have hanswer := awaitAnswer_of_steady (w := ⟨m', w.log⟩) (hs.congr hfaults) hsent
      change Except.ok (awaitAnswer id target ⟨m', w.log⟩).1 = _
      rw [hanswer]
      exact congrArg Except.ok (Host.answersIn_congr hfaults hresponders target)

/-- What a check of a multicast port comes to on a steady host. -/
def verdictInGroup (h : Host) (port : UInt16) (address : Option Address) : Except Failure Bool :=
  let group := address.getD p.options.group
  if group.isMulticast then
    match p.pingResult h (group.endpoint port) with
    | .ok occupied => .ok !occupied
    | .error errno =>
      if errno.isUnreachable then .error (.networkUnreachable (group.endpoint port) errno)
      else .ok false
  else .error (.invalidArgument (.notMulticast group))

/-- On a steady host it is known beforehand what a check of a multicast port comes to. -/
theorem isFreeInGroup_of_steady (port : UInt16) (address : Option Address) {w : Logged Host}
    (hs : w.state.Steady) :
    (p.isFreeInGroup port address w).1 = p.verdictInGroup w.state port address := by
  have hping := p.pingGroup_of_steady (address.getD p.options.group) port hs
  simp only [isFreeInGroup, verdictInGroup]
  by_cases hgroup : (address.getD p.options.group).isMulticast = true
  · rw [if_pos hgroup, if_pos hgroup, ← hping]
    rcases p.pingGroup ((address.getD p.options.group).endpoint port) w with
      ⟨errno | occupied, m⟩
    · dsimp only
      split <;> rfl
    · rfl
  · rw [if_neg hgroup, if_neg hgroup]

/-- What asking in a group comes to depends on the faults and on those who answer. -/
theorem verdictInGroup_congr {h h' : Host} (hfaults : h'.faults = h.faults)
    (hresponders : h'.responders = h.responders) (port : UInt16) (address : Option Address) :
    p.verdictInGroup h' port address = p.verdictInGroup h port address := by
  have hsend (target : Endpoint) : p.sendFault? h' target = p.sendFault? h target :=
    (p.sendPing_decidedBy 0 target).congr h h' hfaults
  have hcreate : h'.faultFor? .create none = h.faultFor? .create none := by
    simp only [Host.faultFor?, hfaults]
  simp only [verdictInGroup, pingResult, hsend, hcreate, Host.answersIn_congr hfaults hresponders]

end Prober

end PortWarden
