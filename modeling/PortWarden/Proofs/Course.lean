import PortWarden.Proofs.Listening

/-!
# The course of a question

A question about a stream port takes steps: it tries to open a listener on one endpoint after the
other, and lists the interfaces in between. What a step finds out shows in its calls, of which at
most one fails, and that one is the last apart from the close of its socket. A failed call makes the
question fail, or ends it because the port is in use, or is waived; the question goes on only in the
last case.
-/

namespace PortWarden

namespace Host

/-- Calls are recorded in order. -/
@[simp] theorem calls_record (h : Host) (call : Call) :
    (h.record call).calls = h.calls ++ [call] := by
  simp [calls, record]

/-- Counting a call against the faults does not record it. -/
@[simp] theorem calls_strike (h : Host) (operation : Operation) (site : Option CallSite) :
    (h.strike operation site).2.calls = h.calls := rfl

/-- A change of a socket by itself is no call. -/
@[simp] theorem calls_update (h : Host) (id : SocketId) (change : Socket → Socket) :
    (h.update id change).calls = h.calls := rfl

end Host

/-- A call on a socket that passes. -/
def Call.on (id : SocketId) (action : Action) : Call := ⟨some id, action, none⟩

/-- A call on a socket that fails. -/
def Call.failing (id : SocketId) (action : Action) (errno : Errno) : Call :=
  ⟨some id, action, some errno⟩

namespace Host

/-- Closing a socket is a call. -/
@[simp] theorem calls_close (h : Host) (id : SocketId) :
    (h.close id).calls = h.calls ++ [Call.on id .close] := by
  simp only [close, calls_record]
  rfl

/-- Creating a socket is a call. -/
@[simp] theorem calls_withSocket (h : Host) (family : Family) (kind : SocketKind) :
    (h.withSocket family kind).calls =
      h.calls ++ [Call.on (h.created + 1) (.create family kind)] := by
  simp only [withSocket, calls_record]
  rfl

/-- What the record shows of certain calls on a socket: either all of them pass, or they are made up
to the first that fails. -/
def Records (id : SocketId) (actions : List Action) (h : Host) (run : Except Errno Unit × Host) :
    Prop :=
  (run.1 = .ok () ∧ run.2.calls = h.calls ++ actions.map (Call.on id)) ∨
    ∃ passed failed errno, passed ++ [failed] <+: actions ∧ run.1 = .error errno ∧
      run.2.calls = h.calls ++ passed.map (Call.on id) ++ [Call.failing id failed errno]

/-- A chain that consists of certain calls on a socket. -/
def Makes (id : SocketId) (actions : List Action) (chain : SystemCall Unit) : Prop :=
  ∀ h, Records id actions h (chain h)

/-- A call passes or fails, and is on record. -/
theorem records_perform (id : SocketId) (action : Action) (operation : Operation)
    (site : Option CallSite) {effect : Host → Host} (heffect : ∀ h, (effect h).calls = h.calls)
    (h : Host) : Records id [action] h (perform operation site (Call.on id action) effect h) := by
  have hcalls := calls_strike h operation site
  simp only [perform]
  rcases hrun : h.strike operation site with ⟨_ | errno, m⟩ <;> rw [hrun] at hcalls
  · left
    exact ⟨rfl, by simp [heffect, hcalls]⟩
  · right
    exact ⟨[], action, errno, List.prefix_rfl, rfl, by simp [hcalls, Call.on, Call.failing]⟩

/-- Letting a socket take an address soon again is one call. -/
theorem makes_reuseAddress (id : SocketId) : Makes id [.reuseAddress] (reuseAddress id) :=
  records_perform id .reuseAddress .reuseAddress none fun _ => rfl

/-- Binding a socket is one call. -/
theorem makes_bind (id : SocketId) (kind : SocketKind) (target : Endpoint) :
    Makes id [.bind target] (bind id kind target) := by
  intro h
  have hcalls := calls_strike h .bind (some target.site)
  simp only [bind]
  rcases hrun : h.strike .bind (some target.site) with ⟨fault, m⟩
  rw [hrun] at hcalls
  dsimp only at hcalls ⊢
  cases fault.or (m.bindFault? kind target) with
  | none =>
    left
    exact ⟨rfl, by simp [hcalls, Call.on]⟩
  | some errno =>
    right
    exact ⟨[], .bind target, errno, List.prefix_rfl, rfl, by simp [hcalls, Call.failing]⟩

/-- Listening is one call. -/
theorem makes_listen (id : SocketId) (backlog : Nat) :
    Makes id [.listen backlog] (listen id backlog) := by
  intro h
  exact records_perform id (.listen backlog) .listen ((h.bound? id).map Endpoint.site)
    (fun m => calls_update m id _) h

/-- The calls of a chain come after those of the chain before it. -/
theorem Makes.chain {id : SocketId} {first rest : List Action} {calls more : SystemCall Unit}
    (hfirst : Makes id first calls) (hrest : Makes id rest more) :
    Makes id (first ++ rest) (calls >>= fun _ => more) := by
  intro h
  have hcalls := hfirst h
  rw [chain_apply]
  rcases hrun : calls h with ⟨result, m⟩
  rw [hrun] at hcalls
  rcases hcalls with ⟨rfl, hcalls⟩ | ⟨passed, failed, errno, hpart, rfl, hcalls⟩ <;>
    dsimp only at hcalls ⊢
  · rcases hrest m with ⟨hpass, hmore⟩ | ⟨passed, failed, errno, hpart, hfail, hmore⟩
    · left
      exact ⟨hpass, by simp [hmore, hcalls]⟩
    · right
      refine ⟨first ++ passed, failed, errno, ?_, hfail, by simp [hmore, hcalls]⟩
      rw [List.append_assoc]
      exact (List.prefix_append_right_inj first).mpr hpart
  · right
    exact ⟨passed, failed, errno, hpart.trans (List.prefix_append _ _), rfl, hcalls⟩

end Host

/-- What a step of a question has to find out. -/
inductive Aim where
  /-- Whether a listener can be opened on an endpoint. -/
  | endpoint (target : Endpoint)
  /-- Which interfaces there are. -/
  | interfaces
  deriving DecidableEq

/-- The failures into which the errors of calls turn: an unreachable network, told with the endpoint
that was tried, and interfaces that cannot be listed. -/
inductive Aim.Fatal : Aim → Errno → Failure → Prop
  /-- No call on the way to a listener may find the network unreachable. -/
  | unreachable {target : Endpoint} {errno : Errno} : errno.isUnreachable = true →
      Fatal (.endpoint target) errno (.networkUnreachable target errno)
  /-- Listing the interfaces may not fail at all. -/
  | unlisted (errno : Errno) : Fatal .interfaces errno (.interfaceListing errno.listingMessage)

/-- The errors that are taken for a free port. -/
inductive Prober.Waives (p : Prober) : Aim → Errno → Prop
  /-- On a link-local address any error is waived that does not tell of an unreachable network, if
  the options say so. -/
  | linkLocal {target : Endpoint} {errno : Errno} : errno.isUnreachable = false →
      target.address.isLinkLocal = true → p.options.linkLocalWorkaround = true →
      p.Waives (.endpoint target) errno

namespace Aim.Fatal

variable {aim : Aim} {errno : Errno} {failure other : Failure}

/-- No fatal error is waived. -/
theorem not_waived (hfatal : aim.Fatal errno failure) (p : Prober) : ¬p.Waives aim errno := by
  intro hwaived
  cases hwaived with
  | linkLocal hreachable _ _ =>
    cases hfatal with
    | unreachable hunreachable => simp [hreachable] at hunreachable

/-- A fatal error is told in one way. -/
theorem unique (hfatal : aim.Fatal errno failure) (hother : aim.Fatal errno other) :
    failure = other := by
  cases hfatal <;> cases hother <;> rfl

end Aim.Fatal

/-- The calls that make a new socket listen, in order. -/
def listenActions (target : Endpoint) : List Action :=
  [.reuseAddress, .bind target, .listen listenBacklog]

/-- Making a socket listen takes these calls. -/
theorem makes_listenOn (id : SocketId) (target : Endpoint) :
    Host.Makes id (listenActions target) (listenOn id target) :=
  (Host.makes_reuseAddress id).chain
    ((Host.makes_bind id .stream target).chain (Host.makes_listen id listenBacklog))

/-- A step of a question about a stream port. -/
inductive Step where
  /-- A listener is opened, and closed in the end. -/
  | opened (target : Endpoint) (id : SocketId)
  /-- No socket can be created for a listener. -/
  | uncreated (target : Endpoint) (errno : Errno)
  /-- A call on a new socket fails, after others that passed, and the socket is closed. -/
  | refused (target : Endpoint) (id : SocketId) (passed : List Action) (failed : Action)
      (errno : Errno) (order : passed ++ [failed] <+: listenActions target)
  /-- The interfaces are listed. -/
  | listed (count : Nat)
  /-- The interfaces cannot be listed. -/
  | unlisted (errno : Errno)

namespace Step

/-- What a step has to find out. -/
def aim : Step → Aim
  | opened target _ | uncreated target _ | refused target .. => .endpoint target
  | listed _ | unlisted _ => .interfaces

/-- The calls of a step, in order. -/
def calls : Step → List Call
  | opened target id =>
    Call.on id (.create target.family .stream) ::
      (listenActions target).map (Call.on id) ++ [Call.on id .close]
  | uncreated target errno => [⟨none, .create target.family .stream, some errno⟩]
  | refused target id passed failed errno _ =>
    Call.on id (.create target.family .stream) ::
      passed.map (Call.on id) ++ [Call.failing id failed errno, Call.on id .close]
  | listed count => [⟨none, .listInterfaces count, none⟩]
  | unlisted errno => [⟨none, .listInterfaces 0, some errno⟩]

/-- The error of the call that fails in a step, if one does. -/
def failure? : Step → Option Errno
  | opened .. | listed _ => none
  | uncreated _ errno | refused _ _ _ _ errno _ | unlisted errno => some errno

/-- The socket of the listener that a step opens. -/
def socket? : Step → Option SocketId
  | opened _ id => some id
  | _ => none

/-- The error of a step is that of one of its calls. -/
theorem failure?_eq_some_iff {step : Step} {errno : Errno} :
    step.failure? = some errno ↔ ∃ call ∈ step.calls, call.failure = some errno := by
  cases step with
  | refused target id passed failed e order =>
    simp only [failure?, calls, List.cons_append, List.mem_cons, List.mem_append, or_and_right,
      exists_or, exists_eq_left, List.not_mem_nil, or_false]
    simp [Call.on, Call.failing]
  | _ => simp [failure?, calls, Call.on, listenActions]

/-- After the call that fails in a step nothing comes but the close of its socket. -/
theorem calls_after_failure {step : Step} {call : Call} {errno : Errno} (hcall : call ∈ step.calls)
    (hfailure : call.failure = some errno) :
    ∃ before after, step.calls = before ++ call :: after ∧ ∀ c ∈ after, c.action = .close := by
  have herrno : step.failure? = some errno := failure?_eq_some_iff.mpr ⟨call, hcall, hfailure⟩
  cases step with
  | opened target id => cases herrno
  | uncreated target e =>
    obtain rfl := List.mem_singleton.mp hcall
    exact ⟨[], [], rfl, by simp⟩
  | refused target id passed failed e order =>
    have hsame : call = Call.failing id failed e := by
      simp only [calls, List.cons_append, List.mem_cons, List.mem_append, List.mem_map,
        List.not_mem_nil, or_false] at hcall
      rcases hcall with rfl | ⟨action, -, rfl⟩ | rfl | rfl
      · cases hfailure
      · cases hfailure
      · rfl
      · cases hfailure
    rw [hsame]
    refine ⟨Call.on id (.create target.family .stream) :: passed.map (Call.on id),
      [Call.on id .close], rfl, ?_⟩
    simp [Call.on]
  | listed count => cases herrno
  | unlisted e =>
    obtain rfl := List.mem_singleton.mp hcall
    exact ⟨[], [], rfl, by simp⟩

/-- Only a step that has to find out the interfaces lists them. -/
theorem aim_of_listing {step : Step} {call : Call} {count : Nat} (hcall : call ∈ step.calls)
    (hlists : call.action = .listInterfaces count) : step.aim = .interfaces := by
  cases step with
  | opened target id =>
    have hactions : call.action ∈ .create target.family .stream :: listenActions target ++
        [.close] := by
      rw [calls] at hcall
      simpa [Call.on, listenActions] using List.mem_map_of_mem hcall (f := Call.action)
    simp [hlists, listenActions] at hactions
  | uncreated target errno =>
    obtain rfl := List.mem_singleton.mp hcall
    cases hlists
  | refused target id passed failed errno order =>
    have hactions : call.action ∈ .create target.family .stream :: (passed ++ [failed]) ++
        [.close] := by
      rw [calls] at hcall
      simpa [Call.on, Call.failing] using List.mem_map_of_mem hcall (f := Call.action)
    rw [hlists] at hactions
    have hlisten : .listInterfaces count ∈ listenActions target := by
      refine order.subset ?_
      simpa using hactions
    simp [listenActions] at hlisten
  | listed _ | unlisted _ => rfl

/-- A step that opens a listener is known by its endpoint. -/
theorem eq_opened {step : Step} {target : Endpoint} (haim : step.aim = .endpoint target)
    (hnone : step.failure? = none) : ∃ id, step = .opened target id := by
  cases step with
  | opened other id =>
    cases haim
    exact ⟨id, rfl⟩
  | listed _ => cases haim
  | _ => cases hnone

/-- A question goes on after a step in which no call fails, or one whose error is waived. -/
def Passes (p : Prober) (step : Step) : Prop := ∀ errno ∈ step.failure?, p.Waives step.aim errno

end Step

/-- The course that a question takes through what it has to find out, and the answer at its end. -/
inductive Course (p : Prober) : List Aim → List Step → Except Failure Bool → Prop
  /-- Everything was found out. -/
  | done : Course p [] [] (.ok true)
  /-- A step passes, and the question goes on. -/
  | passes {step : Step} {aims : List Aim} {steps : List Step} {answer : Except Failure Bool} :
      step.Passes p → Course p aims steps answer →
      Course p (step.aim :: aims) (step :: steps) answer
  /-- A fatal error makes the question fail. -/
  | fails {step : Step} {aims : List Aim} {errno : Errno} {failure : Failure} :
      step.failure? = some errno → step.aim.Fatal errno failure →
      Course p (step.aim :: aims) [step] (.error failure)
  /-- An error that is neither fatal nor waived tells that the port is in use. -/
  | occupied {step : Step} {aims : List Aim} {errno : Errno} :
      step.failure? = some errno → (∀ failure, ¬step.aim.Fatal errno failure) →
      ¬p.Waives step.aim errno → Course p (step.aim :: aims) [step] (.ok false)

namespace Course

variable {p : Prober} {aims more : List Aim} {steps next : List Step}
  {answer : Except Failure Bool}

/-- What comes after a course that is done to the end. -/
theorem append (hcourse : Course p aims steps (.ok true)) (hnext : Course p more next answer) :
    Course p (aims ++ more) (steps ++ next) answer := by
  generalize hdone : Except.ok true = first at hcourse
  induction hcourse with
  | done => exact hnext
  | passes hpasses _ ih => exact .passes hpasses (ih hdone)
  | fails => cases hdone
  | occupied => cases hdone

/-- Nothing comes after a course that ended early. -/
theorem stopped (hcourse : Course p aims steps answer) (hanswer : answer ≠ .ok true)
    (more : List Aim) : Course p (aims ++ more) steps answer := by
  induction hcourse with
  | done => exact absurd rfl hanswer
  | passes hpasses _ ih => exact .passes hpasses (ih hanswer)
  | fails herrno hfatal => exact .fails herrno hfatal
  | occupied herrno hnotFatal hnotWaived => exact .occupied herrno hnotFatal hnotWaived

/-- The steps are taken in the order of what is to be found out. -/
theorem order (hcourse : Course p aims steps answer) : steps.map Step.aim <+: aims := by
  induction hcourse with
  | done => exact List.prefix_rfl
  | passes _ _ ih => exact (List.prefix_cons_inj _).mpr ih
  | fails => exact (List.prefix_cons_inj _).mpr (List.nil_prefix)
  | occupied => exact (List.prefix_cons_inj _).mpr (List.nil_prefix)

/-- A step before others passes. -/
theorem head_passes {step : Step} (hcourse : Course p aims (step :: steps) answer)
    (hmore : steps ≠ []) : step.Passes p := by
  cases hcourse with
  | passes hpasses _ => exact hpasses
  | fails | occupied => exact absurd rfl hmore

/-- A step that does not pass is the last. -/
theorem eq_append_of_not_passes (hcourse : Course p aims steps answer) {step : Step}
    (hstep : step ∈ steps) (hnot : ¬step.Passes p) : ∃ before, steps = before ++ [step] := by
  induction hcourse with
  | done => cases hstep
  | @passes first _ rest _ hpasses _ ih =>
    rcases List.mem_cons.mp hstep with rfl | hlater
    · exact absurd hpasses hnot
    · obtain ⟨before, hbefore⟩ := ih hlater
      exact ⟨first :: before, by rw [hbefore]; rfl⟩
  | fails => exact ⟨[], by rw [List.mem_singleton.mp hstep]; rfl⟩
  | occupied => exact ⟨[], by rw [List.mem_singleton.mp hstep]; rfl⟩

/-- A question fails exactly if a step has a fatal error. -/
theorem answer_eq_error_iff (hcourse : Course p aims steps answer) (failure : Failure) :
    answer = .error failure ↔
      ∃ step ∈ steps, ∃ errno, step.failure? = some errno ∧ step.aim.Fatal errno failure := by
  induction hcourse with
  | done => simp
  | @passes step _ _ _ hpasses _ ih =>
    rw [ih, List.exists_mem_cons_iff]
    refine (or_iff_right ?_).symm
    rintro ⟨errno, herrno, hfatal⟩
    exact hfatal.not_waived p (hpasses errno herrno)
  | @fails step _ errno known herrno hfatal =>
    simp only [List.mem_singleton, exists_eq_left, herrno, Option.some.injEq, exists_eq_left']
    rw [Except.error.injEq]
    exact ⟨fun hsame => hsame ▸ hfatal, hfatal.unique⟩
  | @occupied step _ errno herrno hnotFatal hnotWaived =>
    simp only [List.mem_singleton, exists_eq_left, herrno, Option.some.injEq, exists_eq_left',
      reduceCtorEq, false_iff]
    exact hnotFatal failure

/-- A port is in use if a step has an error that is neither fatal nor waived. -/
theorem answer_of_occupied (hcourse : Course p aims steps answer) {step : Step}
    (hstep : step ∈ steps) {errno : Errno} (herrno : step.failure? = some errno)
    (hnotFatal : ∀ failure, ¬step.aim.Fatal errno failure) (hnotWaived : ¬p.Waives step.aim errno) :
    answer = .ok false := by
  induction hcourse with
  | done => cases hstep
  | passes hpasses _ ih =>
    rcases List.mem_cons.mp hstep with rfl | hlater
    · exact absurd (hpasses errno herrno) hnotWaived
    · exact ih hlater
  | fails hknown hfatal =>
    obtain rfl := List.mem_singleton.mp hstep
    rw [herrno] at hknown
    cases hknown
    exact absurd hfatal (hnotFatal _)
  | occupied => rfl

/-- A port is free exactly if every step passes, and then all steps were taken. -/
theorem answer_eq_true_iff (hcourse : Course p aims steps answer) :
    (answer = .ok true ↔ ∀ step ∈ steps, step.Passes p) ∧
      (answer = .ok true → steps.map Step.aim = aims) := by
  induction hcourse with
  | done => simp
  | passes hpasses _ ih =>
    rw [List.forall_mem_cons, ih.1, List.map_cons]
    exact ⟨⟨fun hall => ⟨hpasses, hall⟩, fun hall => hall.2⟩,
      fun hall => congrArg _ (ih.2 (ih.1.mpr hall))⟩
  | @fails step _ errno failure herrno hfatal =>
    have hnot : ¬step.Passes p := fun hpasses => hfatal.not_waived p (hpasses errno herrno)
    simp [hnot]
  | @occupied step _ errno herrno _ hnotWaived =>
    have hnot : ¬step.Passes p := fun hpasses => hnotWaived (hpasses errno herrno)
    simp [hnot]

end Course

end PortWarden
