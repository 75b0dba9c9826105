import PortWarden.Proofs.Answering

/-!
# Asking in a group

A check of a multicast port creates a socket, prepares it, joins the group, sends a message and
waits for an answer. Its calls tell how far it got, as the first call that fails is the last but for
the close of the socket. A failed call means that the port is in use or that the network cannot be
reached, and only the wait for an answer can fail in a way that means that the port is free.
-/

namespace PortWarden

/-- A wait that runs out has not found the network unreachable. -/
theorem Errno.isTimeout_of_isUnreachable {errno : Errno}
    (hunreachable : errno.isUnreachable = true) : errno.isTimeout = false := by
  cases errno with
  | networkUnreachable | hostUnreachable => rfl
  | _ => cases hunreachable

namespace Host

/-- The wait for an answer is one call, on record with its end. -/
theorem receive_calls (id : SocketId) (h : Host) :
    match receive id h with
    | (.ok sender, m) => m.calls = h.calls ++ [Call.on id (.receive (some sender))]
    | (.error errno, m) => m.calls = h.calls ++ [Call.failing id (.receive none) errno] := by
  let destination := h.socket? id >>= (·.destination)
  have hcalls := h.calls_strike .receive (destination.map Endpoint.site)
  simp only [receive]
  rcases hrun : h.strike .receive (destination.map Endpoint.site) with ⟨_ | errno, m⟩ <;>
    rw [hrun] at hcalls <;> dsimp only at hcalls ⊢
  · cases destination >>= m.answerer? with
    | some sender => simp [hcalls, Call.on]
    | none => simp [hcalls, Call.failing]
  · simp [hcalls, Call.failing]

end Host

/-- Of calls on a socket up to one that fails, and its close, only that one is on record with an
error. -/
theorem Call.exists_failing_iff {id : SocketId} (passed : List Action) {failed action : Action}
    {error errno : Errno} :
    (∃ call ∈ passed.map (Call.on id) ++ [Call.failing id failed error, Call.on id .close],
      call.action = action ∧ call.failure = some errno) ↔ failed = action ∧ error = errno := by
  constructor
  · rintro ⟨call, hcall, rfl, herrno⟩
    simp only [List.mem_append, List.mem_map, List.mem_cons, List.not_mem_nil, or_false] at hcall
    rcases hcall with ⟨action, -, rfl⟩ | rfl | rfl
    · cases herrno
    · exact ⟨rfl, Option.some.inj herrno⟩
    · cases herrno
  · rintro ⟨rfl, rfl⟩
    exact ⟨Call.failing id failed error, by simp, rfl, rfl⟩

namespace Prober

variable (p : Prober)

/-- The calls by which a new socket joins a group, in order. -/
def joinActions : Address → List Action
  | .v4 group =>
    let interface := p.options.multicastInterface.getD .unspecified
    .bind ((Address.unspecified .inet).endpoint 0) ::
      ((if interface = .unspecified then [] else [.multicastInterface interface]) ++
        [.joinOnInterface group interface])
  | .v6 group => [.bind ((Address.unspecified .inet6).endpoint 0), .joinOnIndex group 0]

/-- The calls by which a new socket sends the message, in order. -/
def pingActions (target : Endpoint) : List Action :=
  .reuseAddress :: .timeout p.options.timeout.toNat ::
    (p.joinActions target.address ++ [.send pingMessage target])

/-- Joining a group takes its calls. -/
theorem makes_joinGroup (id : SocketId) (group : Address) :
    Host.Makes id (p.joinActions group) (p.joinGroup id group) := by
  cases group with
  | v4 group =>
    refine (Host.makes_bind id .datagram _).chain ?_
    have hjoin (interface : IPv4) : Host.Makes id [.joinOnInterface group interface]
        (Host.joinOnInterface id group interface) :=
      Host.records_perform id _ .join _ fun _ => rfl
    dsimp only
    by_cases hchosen : p.options.multicastInterface.getD .unspecified = .unspecified
    · simp only [if_pos hchosen]
      exact hjoin _
    · simp only [if_neg hchosen]
      have hinterface : Host.Makes id [.multicastInterface _]
          (Host.setMulticastInterface id (p.options.multicastInterface.getD .unspecified)) :=
        Host.records_perform id _ .multicastInterface _ fun _ => rfl
      exact hinterface.chain (hjoin _)
  | v6 group =>
    have hjoin : Host.Makes id [.joinOnIndex group 0] (Host.joinOnIndex id group 0) :=
      Host.records_perform id _ .join _ fun _ => rfl
    exact (Host.makes_bind id .datagram _).chain hjoin

/-- Sending the message takes its calls. -/
theorem makes_sendPing (id : SocketId) (target : Endpoint) :
    Host.Makes id (p.pingActions target) (p.sendPing id target) := by
  have htimeout : Host.Makes id [.timeout p.options.timeout.toNat]
      (Host.setTimeout id p.options.timeout.toNat) :=
    Host.records_perform id _ .timeout _ fun _ => rfl
  have hsend : Host.Makes id [.send pingMessage target] (Host.send id pingMessage target) :=
    Host.records_perform id _ .send _ fun _ => rfl
  exact (Host.makes_reuseAddress id).chain
    (htimeout.chain ((p.makes_joinGroup id target.address).chain hsend))

/-- How far asking in a group gets. -/
inductive Ping (target : Endpoint) where
  /-- No socket can be created. -/
  | uncreated (errno : Errno)
  /-- A call on the new socket fails, after others that passed. -/
  | refused (id : SocketId) (passed : List Action) (failed : Action) (errno : Errno)
      (order : passed ++ [failed] <+: p.pingActions target)
  /-- The message is sent, and waiting for an answer ends with an error. -/
  | unanswered (id : SocketId) (errno : Errno)
  /-- The message is sent and answered. -/
  | answered (id : SocketId) (sender : Endpoint)

namespace Ping

variable {p : Prober} {target : Endpoint}

/-- The calls made, in order. -/
def calls : p.Ping target → List Call
  | uncreated errno => [⟨none, .create target.family .datagram, some errno⟩]
  | refused id passed failed errno _ =>
    Call.on id (.create target.family .datagram) ::
      passed.map (Call.on id) ++ [Call.failing id failed errno, Call.on id .close]
  | unanswered id errno =>
    Call.on id (.create target.family .datagram) ::
      (p.pingActions target).map (Call.on id) ++
        [Call.failing id (.receive none) errno, Call.on id .close]
  | answered id sender =>
    Call.on id (.create target.family .datagram) ::
      (p.pingActions target).map (Call.on id) ++
        [Call.on id (.receive (some sender)), Call.on id .close]

/-- What asking comes to: whether the port counts as in use, or the error because of which nobody
could be asked. -/
def result : p.Ping target → Except Errno Bool
  | uncreated errno | refused _ _ _ errno _ => .error errno
  | unanswered _ errno => .ok !errno.isTimeout
  | answered .. => .ok true

/-- The call that fails, if one does, and its error. -/
def failure? : p.Ping target → Option (Action × Errno)
  | uncreated errno => some (.create target.family .datagram, errno)
  | refused _ _ failed errno _ => some (failed, errno)
  | unanswered _ errno => some (.receive none, errno)
  | answered .. => none

/-- The call that fails is on record with its error, and no other call with one. -/
theorem failure?_eq_some_iff {ping : p.Ping target} {action : Action} {errno : Errno} :
    ping.failure? = some (action, errno) ↔
      ∃ call ∈ ping.calls, call.action = action ∧ call.failure = some errno := by
  let create := Action.create target.family .datagram
  cases ping with
  | uncreated e => simp [failure?, calls]
  | refused id passed failed e order =>
    rw [failure?, Option.some.injEq, Prod.mk.injEq]
    exact (Call.exists_failing_iff (create :: passed)).symm
  | unanswered id e =>
    rw [failure?, Option.some.injEq, Prod.mk.injEq]
    exact (Call.exists_failing_iff (create :: p.pingActions target)).symm
  | answered id sender =>
    simp only [failure?, calls, reduceCtorEq, false_iff]
    rintro ⟨call, hcall, -, herrno⟩
    have hpasses : call.failure = none := by
      simp only [List.cons_append, List.mem_cons, List.mem_append, List.mem_map, List.not_mem_nil,
        or_false] at hcall
      rcases hcall with rfl | ⟨action, -, rfl⟩ | rfl | rfl <;> rfl
    rw [hpasses] at herrno
    cases herrno

end Ping

/-- The wait for an answer is one call, which tells whether the port counts as in use. -/
theorem awaitAnswer_calls (id : SocketId) (target : Endpoint) (w : Logged Host) :
    (∃ errno, (awaitAnswer id target w).1 = !errno.isTimeout ∧
      (awaitAnswer id target w).2.state.calls =
        w.state.calls ++ [Call.failing id (.receive none) errno]) ∨
      ∃ sender, (awaitAnswer id target w).1 = true ∧
        (awaitAnswer id target w).2.state.calls =
          w.state.calls ++ [Call.on id (.receive (some sender))] := by
  have hreceive := Host.receive_calls id w.state
  simp only [awaitAnswer]
  rcases hrun : Host.receive id w.state with ⟨errno | sender, m⟩ <;> rw [hrun] at hreceive <;>
    dsimp only at hreceive ⊢
  · left
    refine ⟨errno, ?_⟩
    cases errno.isTimeout <;> exact ⟨rfl, hreceive⟩
  · right
    exact ⟨sender, rfl, hreceive⟩

/-- However far asking in a group gets, its calls tell it. -/
theorem pingGroup_calls (target : Endpoint) (w : Logged Host) :
    ∃ ping : p.Ping target, (p.pingGroup target w).1 = ping.result ∧
      (p.pingGroup target w).2.state.calls = w.state.calls ++ ping.calls := by
  have hcalls := Host.calls_strike w.state .create none
  simp only [pingGroup, Host.create_apply]
  rcases hcreate : w.state.strike .create none with ⟨_ | errno, m⟩ <;> rw [hcreate] at hcalls
  · have hsend := p.makes_sendPing (m.created + 1) target (m.withSocket target.family .datagram)
    dsimp only at hcalls ⊢
    rcases hrun : p.sendPing (m.created + 1) target (m.withSocket target.family .datagram) with
      ⟨result, m'⟩
    rw [hrun] at hsend
    rcases hsend with ⟨rfl, hmade⟩ | ⟨passed, failed, errno, order, rfl, hmade⟩ <;>
      dsimp only at hmade ⊢
    · rcases awaitAnswer_calls (m.created + 1) target ⟨m', w.log⟩ with
        ⟨errno, hanswer, hwaited⟩ | ⟨sender, hanswer, hwaited⟩
      · refine ⟨.unanswered (m.created + 1) errno, congrArg Except.ok hanswer, ?_⟩
        simp [hwaited, hmade, hcalls, Ping.calls]
      · refine ⟨.answered (m.created + 1) sender, congrArg Except.ok hanswer, ?_⟩
        simp [hwaited, hmade, hcalls, Ping.calls]
    · refine ⟨.refused (m.created + 1) passed failed errno order, rfl, ?_⟩
      simp [hmade, hcalls, Ping.calls]
  · refine ⟨.uncreated errno, rfl, ?_⟩
    simpa [Ping.calls] using hcalls

/-- The calls that send the message do not wait for an answer. -/
theorem receive_not_mem_pingActions (sender : Option Endpoint) (target : Endpoint) :
    .receive sender ∉ p.pingActions target := by
  simp only [pingActions, joinActions]
  cases target.address with
  | v4 group => split <;> simp
  | v6 group => simp

/-- What a check in a group comes to, after what asking there has come to. -/
def answerInGroup (target : Endpoint) : Except Errno Bool → Except Failure Bool
  | .ok occupied => .ok !occupied
  | .error errno =>
    if errno.isUnreachable then .error (.networkUnreachable target errno) else .ok false

/-- A check in a group asks there, and nothing else. -/
theorem isFreeInGroup_of_group (port : UInt16) {address : Option Address} (w : Logged Host)
    (hgroup : (address.getD p.options.group).isMulticast = true) :
    (p.isFreeInGroup port address w).1 = answerInGroup
        ((address.getD p.options.group).endpoint port)
        (p.pingGroup ((address.getD p.options.group).endpoint port) w).1 ∧
      (p.isFreeInGroup port address w).2.state =
        (p.pingGroup ((address.getD p.options.group).endpoint port) w).2.state := by
  simp only [isFreeInGroup, if_pos hgroup]
  rcases p.pingGroup ((address.getD p.options.group).endpoint port) w with ⟨errno | occupied, m⟩
  · simp only [answerInGroup]
    split <;> exact ⟨rfl, rfl⟩
  · exact ⟨rfl, rfl⟩

namespace Ping

variable {p : Prober} {target : Endpoint} {ping : p.Ping target}

/-- The verdict on the port at the end of asking. -/
def verdict (ping : p.Ping target) : Except Failure Bool := answerInGroup target ping.result

/-- If no call fails, somebody has answered. -/
theorem verdict_of_answered (hnone : ping.failure? = none) : ping.verdict = .ok false := by
  cases ping with
  | answered id sender => rfl
  | _ => cases hnone

/-- The call that fails decides, and the wait for an answer is judged apart from the calls before
it. -/
theorem verdict_of_failure {action : Action} {errno : Errno}
    (hfailure : ping.failure? = some (action, errno)) :
    ping.verdict =
      if action = .receive none then .ok errno.isTimeout
      else answerInGroup target (.error errno) := by
  cases ping with
  | uncreated e =>
    cases hfailure
    rfl
  | refused id passed failed e order =>
    cases hfailure
    have hne : action ≠ .receive none := by
      rintro rfl
      exact p.receive_not_mem_pingActions none target (order.subset (by simp))
    rw [if_neg hne]
    rfl
  | unanswered id e =>
    cases hfailure
    simp [verdict, result, answerInGroup]
  | answered id sender => cases hfailure

/-- The port is free exactly if the wait for an answer runs out. -/
theorem verdict_eq_true_iff :
    ping.verdict = .ok true ↔
      ∃ errno, errno.isTimeout = true ∧ ping.failure? = some (.receive none, errno) := by
  rcases hfailure : ping.failure? with _ | ⟨action, errno⟩
  · simp [verdict_of_answered hfailure]
  · rw [verdict_of_failure hfailure]
    by_cases hwait : action = .receive none
    · simp [hwait]
    · simp only [if_neg hwait, answerInGroup]
      split <;> simp [hwait]

/-- The only failure is that the network cannot be reached, and it is that of a call before the wait
for an answer. -/
theorem verdict_eq_error_iff {failure : Failure} :
    ping.verdict = .error failure ↔
      ∃ action errno, ping.failure? = some (action, errno) ∧ action ≠ .receive none ∧
        errno.isUnreachable = true ∧ failure = .networkUnreachable target errno := by
  rcases hfailure : ping.failure? with _ | ⟨action, errno⟩
  · simp [verdict_of_answered hfailure]
  · rw [verdict_of_failure hfailure]
    by_cases hwait : action = .receive none
    · simp [hwait]
    · rw [if_neg hwait, answerInGroup]
      constructor
      · split
        · rintro ⟨rfl⟩
          exact ⟨action, errno, rfl, hwait, ‹_›, rfl⟩
        · rintro ⟨⟩
      · rintro ⟨action, errno, ⟨rfl, rfl⟩, -, hunreachable, rfl⟩
        rw [if_pos hunreachable]

/-- The wait for an answer runs out exactly if the calls are all those of asking, and the last but
the close fails for that reason. -/
theorem failure?_eq_receive_iff {errno : Errno} :
    ping.failure? = some (.receive none, errno) ↔
      ∃ id, ping.calls = Call.on id (.create target.family .datagram) ::
        (p.pingActions target).map (Call.on id) ++
          [Call.failing id (.receive none) errno, Call.on id .close] := by
  constructor
  · intro hfailure
    cases ping with
    | uncreated e => cases hfailure
    | refused id passed failed e order =>
      cases hfailure
      exact absurd (order.subset (by simp)) (p.receive_not_mem_pingActions none target)
    | unanswered id e =>
      cases hfailure
      exact ⟨id, rfl⟩
    | answered id sender => cases hfailure
  · rintro ⟨id, hcalls⟩
    refine failure?_eq_some_iff.mpr ⟨Call.failing id (.receive none) errno, ?_, rfl, rfl⟩
    rw [hcalls]
    simp

/-- If an answer is on record, no call has failed. -/
theorem failure?_of_answer {call : Call} (hcall : call ∈ ping.calls) {sender : Endpoint}
    (hanswer : call.action = .receive (some sender)) : ping.failure? = none := by
  have hnot : .receive (some sender) ∉ p.pingActions target :=
    p.receive_not_mem_pingActions (some sender) target
  have hactions := List.mem_map_of_mem hcall (f := Call.action)
  rw [hanswer] at hactions
  cases ping with
  | uncreated e => simp [calls] at hactions
  | refused id passed failed e order =>
    have hmem : .receive (some sender) ∈ passed ++ [failed] := by
      simpa [calls, Call.on, Call.failing, Function.comp_def] using hactions
    exact absurd (order.subset hmem) hnot
  | unanswered id e => simp [calls, Call.on, Call.failing, Function.comp_def, hnot] at hactions
  | answered id _ => rfl

end Ping

/-- A check in a group takes asking there as far as it gets, and comes to the verdict at its end. -/
theorem isAvailable_asks (port : UInt16) {address : Option Address} (w : Logged Host)
    (hgroup : (address.getD p.options.group).isMulticast = true) :
    ∃ ping : p.Ping ((address.getD p.options.group).endpoint port),
      (p.isAvailable port .multicast address w).1 = ping.verdict ∧
        (p.isAvailable port .multicast address w).2.state.calls = w.state.calls ++ ping.calls := by
  obtain ⟨ping, hresult, hcalls⟩ :=
    p.pingGroup_calls ((address.getD p.options.group).endpoint port) w
  obtain ⟨hanswer, hstate⟩ := p.isFreeInGroup_of_group port w hgroup
  refine ⟨ping, ?_, ?_⟩
  · rw [Ping.verdict, ← hresult]
    exact hanswer
  · rw [← hcalls, ← hstate]
    rfl

/-- Without faults a port is free in a group exactly if nobody there answers for it. -/
theorem isAvailable_of_no_faults (port : UInt16) {address : Option Address} {w : Logged Host}
    (hgroup : (address.getD p.options.group).isMulticast = true) (hfaults : w.state.faults = []) :
    (p.isAvailable port .multicast address w).1 = .ok true ↔
      ∀ r ∈ w.state.responders, r.group ≠ (address.getD p.options.group).endpoint port := by
  let target := (address.getD p.options.group).endpoint port
  have hnone := Host.faultFor?_of_no_faults hfaults
  have hsend : p.sendFault? w.state target = none := by
    simp only [sendFault?, joinFault?, hnone]
    cases target.address <;> simp
  have hverdict := p.isFreeInGroup_of_steady port address (.of_no_faults hfaults)
  have hping : p.pingResult w.state target = .ok (w.state.answerer? target).isSome := by
    simp only [pingResult, hsend, hnone, Host.answersIn]
    rfl
  change (p.isFreeInGroup port address w).1 = _ ↔ _
  simp only [hverdict, verdictInGroup, if_pos hgroup]
  rw [hping]
  simp [Host.answerer?, target]

/-- What a check of a multicast port comes to, told by the calls that it makes. -/
structure TellsInGroup (port : UInt16) (address : Option Address) (w : Logged Host)
    (made : List Call) : Prop where
  /-- The calls that the check adds to the record. -/
  calls : (p.isAvailable port .multicast address w).2.state.calls = w.state.calls ++ made
  /-- The arguments are found to be no good exactly if the address is no group. -/
  invalid_iff : ∀ fault,
    (p.isAvailable port .multicast address w).1 = .error (.invalidArgument fault) ↔
      (address.getD p.options.group).isMulticast = false ∧
        fault = .notMulticast (address.getD p.options.group)
  /-- Then no call is made. -/
  unasked : (address.getD p.options.group).isMulticast = false → made = []
  /-- The port is free exactly if the address is a group, all calls up to the message pass, and the
  wait for an answer runs out. -/
  free_iff : (p.isAvailable port .multicast address w).1 = .ok true ↔
    (address.getD p.options.group).isMulticast = true ∧ ∃ id errno, errno.isTimeout = true ∧
      made = Call.on id (.create (address.getD p.options.group).family .datagram) ::
        (p.pingActions ((address.getD p.options.group).endpoint port)).map (Call.on id) ++
          [Call.failing id (.receive none) errno, Call.on id .close]
  /-- Without faults it is free in a group exactly if nobody answers for it there. -/
  silent_iff : w.state.faults = [] → (address.getD p.options.group).isMulticast = true →
    ((p.isAvailable port .multicast address w).1 = .ok true ↔
      ∀ r ∈ w.state.responders, r.group ≠ (address.getD p.options.group).endpoint port)
  /-- If an answer arrives, the port is in use. -/
  answered : ∀ call ∈ made, ∀ sender, call.action = .receive (some sender) →
    (p.isAvailable port .multicast address w).1 = .ok false

/-- What a check of a multicast port comes to is told by its calls, whatever calls fail and whoever
answers. -/
theorem multicast_verdict_told (port : UInt16) (address : Option Address) (w : Logged Host) :
    ∃ made, p.TellsInGroup port address w made := by
  by_cases hgroup : (address.getD p.options.group).isMulticast = true
  · obtain ⟨ping, hverdict, hcalls⟩ := p.isAvailable_asks port w hgroup
    refine ⟨ping.calls, ?_⟩
    constructor
    case calls => exact hcalls
    case invalid_iff =>
      intro fault
      simp [hverdict, Ping.verdict_eq_error_iff, hgroup]
    case unasked =>
      intro hnot
      rw [hgroup] at hnot
      cases hnot
    case free_iff =>
      rw [hverdict, Ping.verdict_eq_true_iff]
      simp only [Ping.failure?_eq_receive_iff, hgroup, true_and]
      constructor
      · rintro ⟨errno, htimeout, id, hmade⟩
        exact ⟨id, errno, htimeout, hmade⟩
      · rintro ⟨id, errno, htimeout, hmade⟩
        exact ⟨errno, htimeout, id, hmade⟩
    case silent_iff =>
      intro hfaults _
      exact p.isAvailable_of_no_faults port hgroup hfaults
    case answered =>
      intro call hcall sender hanswer
      rw [hverdict]
      exact Ping.verdict_of_answered (Ping.failure?_of_answer hcall hanswer)
  · have hrun : p.isAvailable port .multicast address w =
        (.error (.invalidArgument (.notMulticast (address.getD p.options.group))), w) :=
      if_neg hgroup
    refine ⟨[], ?_⟩
    constructor
    case calls => rw [hrun, List.append_nil]
    case invalid_iff =>
      intro fault
      simp [hrun, hgroup, eq_comm]
    case unasked => exact fun _ => rfl
    case free_iff => simp [hrun, hgroup]
    case silent_iff =>
      intro _ hmulticast
      exact absurd hmulticast hgroup
    case answered =>
      intro call hcall
      cases hcall

/-- What the failed calls of a check in a group would come to if the wait for an answer were judged
like the calls before it, but for its running out. -/
structure SurfacesInGroup (target : Endpoint) (made : List Call) (answer : Except Failure Bool) :
    Prop where
  /-- The check fails with the endpoint and the error exactly if a call finds the network
  unreachable. -/
  unreachable_iff : ∀ errno, answer = .error (.networkUnreachable target errno) ↔
    errno.isUnreachable = true ∧ ∃ call ∈ made, call.failure = some errno
  /-- If the wait for an answer runs out, the port is free. -/
  silent : ∀ call ∈ made, ∀ errno, call.failure = some errno → call.action = .receive none →
    errno.isTimeout = true → answer = .ok true
  /-- If a call fails otherwise, the port is in use. -/
  occupied : ∀ call ∈ made, ∀ errno, call.failure = some errno → errno.isUnreachable = false →
    (call.action = .receive none → errno.isTimeout = false) → answer = .ok false

/-- An unreachable network makes a check in a group fail at every call but the wait for an answer:
if it is the wait that finds the network unreachable, the port counts as in use, and that is the
only case in which failed calls do not surface in the same way. -/
theorem group_failures_surface_iff (port : UInt16) {address : Option Address} (w : Logged Host)
    (hgroup : (address.getD p.options.group).isMulticast = true) :
    ∃ made, (p.isAvailable port .multicast address w).2.state.calls = w.state.calls ++ made ∧
      (SurfacesInGroup ((address.getD p.options.group).endpoint port) made
          (p.isAvailable port .multicast address w).1 ↔
        ∀ call ∈ made, call.action = .receive none → ∀ errno, call.failure = some errno →
          errno.isUnreachable = false) ∧
      ∀ call ∈ made, call.action = .receive none → ∀ errno, call.failure = some errno →
        errno.isUnreachable = true → (p.isAvailable port .multicast address w).1 = .ok false := by
  obtain ⟨ping, hverdict, hcalls⟩ := p.isAvailable_asks port w hgroup
  have hfailed {call : Call} (hcall : call ∈ ping.calls) {errno : Errno}
      (herrno : call.failure = some errno) : ping.failure? = some (call.action, errno) :=
    Ping.failure?_eq_some_iff.mpr ⟨call, hcall, rfl, herrno⟩
  have hwaited : ∀ call ∈ ping.calls, call.action = .receive none →
      ∀ errno, call.failure = some errno → errno.isUnreachable = true →
        ping.verdict = .ok false := by
    intro call hcall hwait errno herrno hunreachable
    rw [Ping.verdict_of_failure (hfailed hcall herrno), if_pos hwait,
      Errno.isTimeout_of_isUnreachable hunreachable]
  refine ⟨ping.calls, hcalls, ?_, by rwa [hverdict]⟩
  rw [hverdict]
  constructor
  · intro hsurfaces call hcall hwait errno herrno
    by_contra hunreachable
    rw [Bool.not_eq_false] at hunreachable
    have hfails := (hsurfaces.unreachable_iff errno).mpr ⟨hunreachable, call, hcall, herrno⟩
    rw [hwaited call hcall hwait errno herrno hunreachable] at hfails
    cases hfails
  · intro hreachable
    constructor
    case unreachable_iff =>
      intro errno
      rw [Ping.verdict_eq_error_iff]
      constructor
      · rintro ⟨action, _, hfailure, -, hunreachable, ⟨rfl⟩⟩
        obtain ⟨call, hcall, -, herrno⟩ := Ping.failure?_eq_some_iff.mp hfailure
        exact ⟨hunreachable, call, hcall, herrno⟩
      · rintro ⟨hunreachable, call, hcall, herrno⟩
        refine ⟨call.action, errno, hfailed hcall herrno, fun hwait => ?_, hunreachable, rfl⟩
        rw [hreachable call hcall hwait errno herrno] at hunreachable
        cases hunreachable
    case silent =>
      intro call hcall errno herrno hwait htimeout
      rw [Ping.verdict_of_failure (hfailed hcall herrno), if_pos hwait, htimeout]
    case occupied =>
      intro call hcall errno herrno hnotUnreachable hnotTimeout
      rw [Ping.verdict_of_failure (hfailed hcall herrno)]
      by_cases hwait : call.action = .receive none
      · rw [if_pos hwait, hnotTimeout hwait]
      · rw [if_neg hwait, answerInGroup, if_neg (by simp [hnotUnreachable])]

/-- A host on which one kind of call finds the network unreachable. -/
def unroutedHost (operation : Operation) : Logged Host :=
  ⟨{ faults := [{ operation, errno := .networkUnreachable }] }, []⟩

/-- The calls of a check in the default group on a host on which no group can be joined. -/
def unjoinedCalls : List Call :=
  [.reuseAddress, .timeout 2000, .bind ((Address.unspecified .inet).endpoint 0)].map (Call.on 1) ++
    [Call.failing 1 (.joinOnInterface ⟨239, 192, 81, 1⟩ .unspecified) .networkUnreachable,
      Call.on 1 .close]

/-- In particular the check fails if the group cannot be joined for want of a network. -/
theorem group_failure_surfaces_at_join :
    defaultGroup.isMulticast = true ∧
      (({} : Prober).isAvailable 5000 .multicast none (unroutedHost .join)).1 =
        .error (.networkUnreachable (defaultGroup.endpoint 5000) .networkUnreachable) := by
  have hgroup : ((none : Option Address).getD defaultGroup).isMulticast = true := by decide
  obtain ⟨made, hcalls, hsurfaces, -⟩ :=
    group_failures_surface_iff {} 5000 (unroutedHost .join) hgroup
  have hmade : made = Call.on 1 (.create .inet .datagram) :: unjoinedCalls := by
    refine hcalls.symm.trans ?_
    decide +kernel
  have hwaited : ∀ call ∈ made, call.action = .receive none → ∀ errno,
      call.failure = some errno → errno.isUnreachable = false := by
    rw [hmade]
    simp [unjoinedCalls, Call.on, Call.failing]
  refine ⟨hgroup, ((hsurfaces.mpr hwaited).unreachable_iff .networkUnreachable).mpr ⟨rfl, ?_⟩⟩
  rw [hmade]
  exact ⟨Call.failing 1 (.joinOnInterface ⟨239, 192, 81, 1⟩ .unspecified) .networkUnreachable,
    by simp [unjoinedCalls], rfl⟩

/-- If the wait for an answer finds the network unreachable, the port merely counts as in use. -/
theorem unreachable_wait_counts_as_use :
    (∃ call ∈
          (({} : Prober).isAvailable 5000 .multicast none (unroutedHost .receive)).2.state.calls,
        call.failure = some .networkUnreachable) ∧
      (({} : Prober).isAvailable 5000 .multicast none (unroutedHost .receive)).1 = .ok false := by
  decide +kernel

end Prober

end PortWarden
