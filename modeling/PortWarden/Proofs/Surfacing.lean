import PortWarden.Proofs.Course
import PortWarden.Proofs.Verdict

/-!
# Which failures of calls surface

Whatever calls fail, a question about a stream port takes a course through the endpoints that have
to be free. So its answer is told by its calls: it fails exactly if one of them failed fatally, an
error that is neither fatal nor waived means that the port is in use, and in both cases no call
comes after the failed one but the close of its socket.
-/

namespace PortWarden

/-- Opening a listener is a step, which shows in the calls. -/
theorem openListener_step (target : Endpoint) (h : Host) :
    ∃ step : Step, step.aim = .endpoint target ∧
      match openListener target h with
      | (.ok id, m) =>
        step = .opened target id ∧ m.calls ++ [Call.on id .close] = h.calls ++ step.calls
      | (.error errno, m) =>
        step.failure? = some errno ∧ step.socket? = none ∧ m.calls = h.calls ++ step.calls := by
  have hcalls := Host.calls_strike h .create none
  rw [openListener_apply, Host.create_apply]
  rcases hcreate : h.strike .create none with ⟨_ | errno, m⟩ <;> rw [hcreate] at hcalls
  · have hlisten := makes_listenOn (m.created + 1) target (m.withSocket target.family .stream)
    dsimp only at hcalls ⊢
    rcases hrun : listenOn (m.created + 1) target (m.withSocket target.family .stream) with
      ⟨result, m'⟩
    rw [hrun] at hlisten
    rcases hlisten with ⟨rfl, hmade⟩ | ⟨passed, failed, errno, order, rfl, hmade⟩ <;>
      dsimp only at hmade ⊢
    · refine ⟨.opened target (m.created + 1), rfl, rfl, ?_⟩
      simp [hmade, hcalls, Step.calls]
    · refine ⟨.refused target (m.created + 1) passed failed errno order, rfl, rfl, rfl, ?_⟩
      simp [hmade, hcalls, Step.calls]
  · refine ⟨.uncreated target errno, rfl, rfl, rfl, ?_⟩
    simpa [Step.calls] using hcalls

/-- Whether a listener is opened or not, nothing around the host changes. -/
theorem openListener_advances (target : Endpoint) (h : Host) :
    h.Advances (openListener target h).2 := by
  have hstrike := (Host.tends_strike 0 h .create none).toAdvances
  rw [openListener_apply, Host.create_apply]
  rcases hcreate : h.strike .create none with ⟨_ | errno, m⟩ <;> rw [hcreate] at hstrike
  · have hnew := hstrike.trans (m.advances_withSocket target.family .stream)
    have hwork :=
      worksOn_listenOn (m.created + 1) target (m.withSocket target.family .stream)
    dsimp only
    rcases hrun : listenOn (m.created + 1) target (m.withSocket target.family .stream) with
      ⟨errno | _, m'⟩ <;> rw [hrun] at hwork
    · exact (hnew.trans hwork.toAdvances).trans (m'.advances_close _)
    · exact hnew.trans hwork.toAdvances
  · exact hstrike.trans (Host.tends_record 0 m rfl rfl).toAdvances

/-- The close that is still to come when a claim gives a keeper with a socket. -/
def closeOwed : Except Failure (Option Keeper) → List Call
  | .ok (some keeper) => keeper.socket.toList.map (Call.on · .close)
  | _ => []

/-- The listing that a question takes to find out the interface addresses. -/
def InterfaceSource.aims : InterfaceSource → List Aim
  | .system => [.interfaces]
  | .fixed _ => []

namespace Prober

variable (p : Prober)

/-- What has to be found out, in order, before a stream port is free: on an address, whether a
listener can be opened there, and on the whole host, whether that goes on the wildcard, then on each
interface address, and on the wildcard once more. -/
def aims (h : Host) (port : UInt16) : Option Address → List Aim
  | some address => [.endpoint (address.endpoint port)]
  | none =>
    .endpoint (Address.wildcard.endpoint port) :: p.interfaces.aims ++
      (p.interfaces.listed h).map (fun i => .endpoint (i.endpoint port)) ++
      [.endpoint (Address.wildcard.endpoint port)]

/-- A run of a check that takes certain steps, which show in the calls. -/
structure Takes (aims : List Aim) (steps : List Step) (w : Logged Host)
    (run : Except Failure Bool × Logged Host) : Prop where
  /-- The steps make a course, and the answer is the one at its end. -/
  course : Course p aims steps run.1
  /-- The calls made are those of the steps. -/
  calls : run.2.state.calls = w.state.calls ++ steps.flatMap Step.calls

variable {p} in
/-- A check goes on with another one if the port is free so far, and otherwise makes no more
calls. -/
theorem Takes.chain {question : Probing Host Bool} {rest : Bool → Probing Host Bool}
    {w : Logged Host} {aims more : List Aim} {steps : List Step}
    (hfirst : p.Takes aims steps w (question w))
    (hrest : ∀ m, question w = (.ok true, m) → ∃ next, p.Takes more next m (rest true m))
    (hstop : ∀ m, (rest false m).1 = .ok false ∧ (rest false m).2.state = m.state) :
    ∃ all, p.Takes (aims ++ more) all w ((question >>= rest) w) := by
  have hcourse := hfirst.course
  have hcalls := hfirst.calls
  rw [chain_apply]
  rcases hrun : question w with ⟨failure | _ | _, m⟩ <;> rw [hrun] at hcourse hcalls
  · exact ⟨steps, hcourse.stopped (by simp) more, hcalls⟩
  · obtain ⟨hanswer, hstate⟩ := hstop m
    refine ⟨steps, ?_, by rw [hstate]; exact hcalls⟩
    rw [hanswer]
    exact hcourse.stopped (by simp) more
  · obtain ⟨next, hnext⟩ := hrest m hrun
    refine ⟨steps ++ next, hcourse.append hnext.course, ?_⟩
    rw [List.flatMap_append, ← List.append_assoc, ← hcalls]
    exact hnext.calls

/-- A claim given back has closed its socket. -/
theorem calls_released (claim : Probing Host (Option Keeper)) (w : Logged Host) :
    (released claim w).2.state.calls = (claim w).2.state.calls ++ closeOwed (claim w).1 := by
  simp only [released]
  rcases claim w with ⟨failure | _ | ⟨port, _ | id⟩, m⟩
  · simp [closeOwed]
  · simp [closeOwed]
  · simp [closeOwed, Keeper.drop, Keeper.release]
  · exact Host.calls_close m.state id

/-- What a claim comes to when its listener cannot be opened. -/
def resultOfError (target : Endpoint) (errno : Errno) : Except Failure (Option Keeper) :=
  if errno.isUnreachable then .error (.networkUnreachable target errno)
  else if p.options.linkLocalWorkaround && target.address.isLinkLocal then
    .ok (some ⟨target.port, none⟩)
  else .ok none

/-- A claim makes the calls that open a listener, and what it comes to depends on whether they
pass. -/
theorem claim_outcome (target : Endpoint) (w : Logged Host) :
    (p.claim target w).2.state = (openListener target w.state).2 ∧
      (p.claim target w).1 =
        match (openListener target w.state).1 with
        | .ok id => .ok (some ⟨target.port, some id⟩)
        | .error errno => p.resultOfError target errno := by
  simp only [claim, resultOfError]
  rcases openListener target w.state with ⟨errno | id, m⟩
  · dsimp only
    split
    · exact ⟨rfl, rfl⟩
    · split <;> exact ⟨rfl, rfl⟩
  · exact ⟨rfl, rfl⟩

/-- The step in which a listener cannot be opened makes a course by itself. -/
theorem course_of_error {step : Step} {target : Endpoint} {errno : Errno}
    (haim : step.aim = .endpoint target) (herrno : step.failure? = some errno) :
    Course p [.endpoint target] [step] ((p.resultOfError target errno).map (·.isSome)) := by
  rw [← haim, resultOfError]
  by_cases hunreachable : errno.isUnreachable = true
  · rw [if_pos hunreachable]
    refine .fails herrno ?_
    rw [haim]
    exact .unreachable hunreachable
  · rw [if_neg hunreachable]
    by_cases hwaived : (p.options.linkLocalWorkaround && target.address.isLinkLocal) = true
    · rw [if_pos hwaived]
      rw [Bool.and_eq_true] at hwaived
      have hpasses : step.Passes p := by
        intro e he
        obtain rfl : errno = e := Option.some.inj (herrno.symm.trans he)
        rw [haim]
        exact .linkLocal (Bool.not_eq_true _ ▸ hunreachable) hwaived.2 hwaived.1
      exact .passes hpasses .done
    · rw [if_neg hwaived]
      refine .occupied herrno ?_ ?_ <;> rw [haim]
      · rintro failure ⟨hfatal⟩
        exact hunreachable hfatal
      · rintro ⟨-, hlocal, hworkaround⟩
        simp [hlocal, hworkaround] at hwaived

variable {p} in
/-- A claim that is given although its listener cannot be opened has no socket. -/
theorem keeper_of_resultOfError {target : Endpoint} {errno : Errno} {keeper : Keeper}
    (hkeeper : p.resultOfError target errno = .ok (some keeper)) :
    keeper = ⟨target.port, none⟩ := by
  unfold resultOfError at hkeeper
  split at hkeeper
  · cases hkeeper
  · split at hkeeper <;> cases hkeeper
    rfl

/-- So no close is still to come. -/
theorem closeOwed_resultOfError (target : Endpoint) (errno : Errno) :
    closeOwed (p.resultOfError target errno) = [] := by
  rcases hresult : p.resultOfError target errno with failure | _ | keeper
  · rfl
  · rfl
  · rw [keeper_of_resultOfError hresult]
    rfl

/-- A check on one endpoint is one step, and the claim behind it keeps the socket of that step. -/
theorem isFree_takes (target : Endpoint) (w : Logged Host) :
    ∃ step, p.Takes [.endpoint target] [step] w (p.isFree target w) ∧
      ∀ keeper, (p.claim target w).1 = .ok (some keeper) →
        keeper = ⟨target.port, step.socket?⟩ := by
  have hcalls : (p.isFree target w).2.state.calls = _ := calls_released (p.claim target) w
  have hanswer : (p.isFree target w).1 = _ := released_fst (p.claim target) w
  obtain ⟨hstate, hresult⟩ := p.claim_outcome target w
  obtain ⟨step, haim, hstep⟩ := openListener_step target w.state
  rw [hstate, hresult] at hcalls
  rw [hresult] at hanswer ⊢
  refine ⟨step, ?_⟩
  rcases hrun : openListener target w.state with ⟨errno | id, m⟩ <;>
    simp only [hrun] at hstep hcalls hanswer ⊢
  · obtain ⟨herrno, hsocket, hmade⟩ := hstep
    refine ⟨⟨?_, ?_⟩, ?_⟩
    · rw [hanswer]
      exact p.course_of_error haim herrno
    · rw [hcalls, closeOwed_resultOfError, List.append_nil, hmade, List.flatMap_singleton]
    · intro keeper hkeeper
      rw [hsocket]
      exact keeper_of_resultOfError hkeeper
  · obtain ⟨rfl, hmade⟩ := hstep
    refine ⟨⟨?_, ?_⟩, ?_⟩
    · rw [hanswer]
      have hpasses : (Step.opened target id).Passes p := by simp [Step.Passes, Step.failure?]
      exact .passes hpasses .done
    · rw [hcalls, List.flatMap_singleton]
      exact hmade
    · rintro keeper ⟨rfl⟩
      rfl

/-- Checking one endpoint changes nothing around the host. -/
theorem isFree_advances (target : Endpoint) (w : Logged Host) :
    w.state.Advances (p.isFree target w).2.state := by
  have hopen := openListener_advances target w.state
  rw [← (p.claim_outcome target w).1] at hopen
  simp only [isFree, released]
  rcases hrun : p.claim target w with ⟨failure | _ | ⟨port, _ | id⟩, m⟩ <;> rw [hrun] at hopen
  · exact hopen
  · exact hopen
  · exact hopen
  · exact hopen.trans (m.state.advances_close id)

/-- A check on interface addresses takes a step for each. -/
theorem isFreeOnEach_takes (port : UInt16) (is : List InterfaceAddress) (w : Logged Host) :
    ∃ steps, p.Takes (is.map fun i => .endpoint (i.endpoint port)) steps w
      (p.isFreeOnEach port is w) := by
  induction is generalizing w with
  | nil => exact ⟨[], .done, by simp [isFreeOnEach, pure_apply]⟩
  | cons i is ih =>
    obtain ⟨step, hstep, -⟩ := p.isFree_takes (i.endpoint port) w
    exact hstep.chain (fun m _ => ih m) fun _ => ⟨rfl, rfl⟩

/-- A check on the interface addresses of a source takes a step for finding them out, if they have
to be asked for, and one for each. -/
theorem interfaces_take (source : InterfaceSource) (port : UInt16) (w : Logged Host) :
    ∃ steps, p.Takes
      (source.aims ++ (source.listed w.state).map fun i => .endpoint (i.endpoint port)) steps w
      ((source.addresses >>= p.isFreeOnEach port) w) := by
  rw [chain_apply]
  cases source with
  | fixed addresses => exact p.isFreeOnEach_takes port addresses w
  | system =>
    have hcalls := Host.calls_strike w.state .listInterfaces none
    have hinterfaces := (Host.tends_strike 0 w.state .listInterfaces none).interfaces
    simp only [InterfaceSource.addresses, Host.listInterfaces]
    rcases hrun : w.state.strike .listInterfaces none with ⟨_ | errno, m⟩ <;>
      rw [hrun] at hcalls hinterfaces <;> dsimp only at hcalls hinterfaces ⊢
    · obtain ⟨steps, hsteps⟩ := p.isFreeOnEach_takes port
        (m.interfaces.filterMap InterfaceEntry.interfaceAddress?)
        (Logged.note { w with state := m.record ⟨none, .listInterfaces m.interfaces.length, none⟩ }
          (.interfacesListed (m.interfaces.filterMap InterfaceEntry.interfaceAddress?).length))
      have hpasses : (Step.listed m.interfaces.length).Passes p := by
        simp [Step.Passes, Step.failure?]
      refine ⟨.listed m.interfaces.length :: steps, ?_, ?_⟩
      · simp only [InterfaceSource.listed, ← hinterfaces]
        exact .passes hpasses hsteps.course
      · rw [hsteps.calls]
        simp [Logged.note, hcalls, Step.calls]
    · have hfatal : (Step.unlisted errno).aim.Fatal errno _ := .unlisted errno
      refine ⟨[.unlisted errno], .fails rfl hfatal, ?_⟩
      simp [hcalls, Step.calls]

/-- The checks that come before a claim on the whole host take all steps but the last. -/
theorem checkEverywhere_takes (port : UInt16) (w : Logged Host) :
    ∃ steps, p.Takes
      (.endpoint (Address.wildcard.endpoint port) :: p.interfaces.aims ++
        (p.interfaces.listed w.state).map fun i => .endpoint (i.endpoint port)) steps w
      (p.checkEverywhere port w) := by
  obtain ⟨step, hstep, -⟩ := p.isFree_takes (Address.wildcard.endpoint port) w
  have hadvances := p.isFree_advances (Address.wildcard.endpoint port) w
  refine hstep.chain (fun m hrun => ?_) fun _ => ⟨rfl, rfl⟩
  rw [hrun] at hadvances
  rw [← InterfaceSource.listed_congr hadvances.interfaces]
  exact p.interfaces_take p.interfaces port m

/-- A claim of a stream port, given back at once, takes its steps in order, and its keeper has the
socket of the last of them. -/
theorem claimStream_takes (port : UInt16) (address : Option Address) (w : Logged Host) :
    ∃ steps, p.Takes (p.aims w.state port address) steps w
        (released (p.claimStream port address) w) ∧
      ∀ keeper, (p.claimStream port address w).1 = .ok (some keeper) →
        keeper = ⟨port, steps.getLast?.bind Step.socket?⟩ := by
  cases address with
  | some address =>
    obtain ⟨step, hstep, hkept⟩ := p.isFree_takes (address.endpoint port) w
    exact ⟨[step], hstep, hkept⟩
  | none =>
    let wildcard := Address.wildcard.endpoint port
    obtain ⟨steps, hsteps⟩ := p.checkEverywhere_takes port w
    change ∃ steps, p.Takes (_ ++ [.endpoint wildcard]) steps w
      (released (p.claimEverywhere port) w) ∧ ∀ keeper, (p.claimEverywhere port w).1 = _ → _
    have hcourse := hsteps.course
    have hcalls := hsteps.calls
    simp only [released, claimEverywhere_eq, chain_apply]
    rcases hrun : p.checkEverywhere port w with ⟨failure | _ | _, m⟩ <;> rw [hrun] at hcourse hcalls
    · exact ⟨steps, ⟨hcourse.stopped (by simp) _, hcalls⟩, by simp⟩
    · exact ⟨steps, ⟨hcourse.stopped (by simp) _, hcalls⟩, by simp [pure_apply]⟩
    · obtain ⟨step, hstep, hkept⟩ := p.isFree_takes wildcard m
      refine ⟨steps ++ [step], ⟨hcourse.append hstep.course, ?_⟩, ?_⟩
      · rw [List.flatMap_append, ← List.append_assoc, ← hcalls]
        exact hstep.calls
      · rw [List.getLast?_concat]
        exact hkept

/-- What the calls tell of a question about a stream port, on an address or on the whole host. -/
structure Surfaces (port : UInt16) (address : Option Address) (w : Logged Host)
    (steps : List Step) : Prop where
  /-- The calls of a check are those of its steps. -/
  checked : (p.isAvailable port .stream address w).2.state.calls =
    w.state.calls ++ steps.flatMap Step.calls
  /-- A claim makes the same calls, but leaves the last close to its keeper. -/
  claimed : (p.keep port .stream address w).2.state.calls ++
    closeOwed (p.keep port .stream address w).1 = w.state.calls ++ steps.flatMap Step.calls
  /-- A claim fails as the check does. If the port is free, its keeper has the socket that the last
  step opened, and none if the error of that step was waived. -/
  kept : (p.keep port .stream address w).1 = (p.isAvailable port .stream address w).1.map
    fun free => if free then some ⟨port, steps.getLast?.bind Step.socket?⟩ else none
  /-- The steps are taken in order, from the first on. -/
  order : steps.map Step.aim <+: p.aims w.state port address
  /-- The question fails exactly if a call fails fatally, and with the failure that this is. -/
  failure_iff : ∀ failure, (p.isAvailable port .stream address w).1 = .error failure ↔
    ∃ step ∈ steps, ∃ call ∈ step.calls, ∃ errno,
      call.failure = some errno ∧ step.aim.Fatal errno failure
  /-- If a call fails with an error that is neither fatal nor waived, the port is in use. -/
  occupied : ∀ step ∈ steps, ∀ call ∈ step.calls, ∀ errno, call.failure = some errno →
    (∀ failure, ¬step.aim.Fatal errno failure) → ¬p.Waives step.aim errno →
    (p.isAvailable port .stream address w).1 = .ok false
  /-- After a failed call whose error is not waived comes nothing but the close of its socket. -/
  last : ∀ step ∈ steps, ∀ call ∈ step.calls, ∀ errno, call.failure = some errno →
    ¬p.Waives step.aim errno → ∃ before after,
      steps.flatMap Step.calls = before ++ call :: after ∧ ∀ c ∈ after, c.action = .close
  /-- The port is free exactly if every failed call is waived. -/
  free_iff : (p.isAvailable port .stream address w).1 = .ok true ↔
    ∀ step ∈ steps, ∀ call ∈ step.calls, ∀ errno, call.failure = some errno →
      p.Waives step.aim errno
  /-- Then the question has gone on to the end. -/
  complete : (p.isAvailable port .stream address w).1 = .ok true →
    steps.map Step.aim = p.aims w.state port address
  /-- The interfaces are asked for only on the whole host, after a listener on the wildcard. -/
  listing : ∀ call ∈ steps.flatMap Step.calls, ∀ count, call.action = .listInterfaces count →
    address = none ∧
      ∃ id rest, steps = .opened (Address.wildcard.endpoint port) id :: rest

variable {p} in
/-- A step passes exactly if each call that fails in it is waived. -/
theorem passes_iff {step : Step} :
    step.Passes p ↔ ∀ call ∈ step.calls, ∀ errno, call.failure = some errno →
      p.Waives step.aim errno := by
  simp only [Step.Passes, Option.mem_def, Step.failure?_eq_some_iff, forall_exists_index, and_imp]
  exact forall_comm.trans (forall_congr' fun _ => forall_comm)

variable {p} in
/-- In a course after a failed call whose error is not waived comes nothing but a close. -/
theorem calls_after_unwaived {aims : List Aim} {steps : List Step} {answer : Except Failure Bool}
    (hcourse : Course p aims steps answer) {step : Step} (hstep : step ∈ steps) {call : Call}
    (hcall : call ∈ step.calls) {errno : Errno} (hfailure : call.failure = some errno)
    (hnotWaived : ¬p.Waives step.aim errno) :
    ∃ before after, steps.flatMap Step.calls = before ++ call :: after ∧
      ∀ c ∈ after, c.action = .close := by
  have hnot : ¬step.Passes p := fun hpasses =>
    hnotWaived (passes_iff.mp hpasses call hcall errno hfailure)
  obtain ⟨earlier, rfl⟩ := hcourse.eq_append_of_not_passes hstep hnot
  obtain ⟨before, after, hcalls, hafter⟩ := Step.calls_after_failure hcall hfailure
  refine ⟨earlier.flatMap Step.calls ++ before, after, ?_, hafter⟩
  rw [List.flatMap_append, List.flatMap_singleton, hcalls, List.append_assoc]

/-- A question that asks for the interfaces is about the whole host, and has opened a listener on
the wildcard first. -/
theorem opened_before_listing {h : Host} {port : UInt16} {address : Option Address}
    {steps : List Step} {answer : Except Failure Bool}
    (hcourse : Course p (p.aims h port address) steps answer) {step : Step} (hstep : step ∈ steps)
    (haim : step.aim = .interfaces) :
    address = none ∧
      ∃ id rest, steps = .opened (Address.wildcard.endpoint port) id :: rest := by
  cases address with
  | some address =>
    have hmem := hcourse.order.subset (List.mem_map_of_mem hstep)
    rw [haim] at hmem
    simp [aims] at hmem
  | none =>
    refine ⟨rfl, ?_⟩
    cases steps with
    | nil => cases hstep
    | cons first rest =>
      have hfirst : first.aim = .endpoint (Address.wildcard.endpoint port) :=
        (List.cons_prefix_cons.mp hcourse.order).1
      have hlater : step ∈ rest := by
        refine (List.mem_cons.mp hstep).resolve_left ?_
        rintro rfl
        rw [hfirst] at haim
        cases haim
      have hpasses := hcourse.head_passes (List.ne_nil_of_mem hlater)
      have hnone : first.failure? = none := by
        refine Option.eq_none_iff_forall_not_mem.mpr fun errno herrno => ?_
        have hwaived := hpasses errno herrno
        rw [hfirst] at hwaived
        cases hwaived with
        | linkLocal _ hlocal _ => cases hlocal
      obtain ⟨id, hopened⟩ := Step.eq_opened hfirst hnone
      exact ⟨id, rest, by rw [hopened]⟩

/-- Whatever calls fail, what a question about a stream port comes to is told by its calls. -/
theorem stream_failures_surface (port : UInt16) (address : Option Address) (w : Logged Host) :
    ∃ steps, p.Surfaces port address w steps := by
  obtain ⟨steps, htakes, hkept⟩ := p.claimStream_takes port address w
  have hcourse : Course p _ steps (p.isAvailable port .stream address w).1 := htakes.course
  have hanswer : (p.isAvailable port .stream address w).1 = _ :=
    released_fst (p.claimStream port address) w
  refine ⟨steps, ?_⟩
  constructor
  case checked => exact htakes.calls
  case claimed => exact (calls_released (p.claimStream port address) w).symm.trans htakes.calls
  case kept =>
    rw [hanswer]
    change (p.claimStream port address w).1 = _
    rcases hclaim : (p.claimStream port address w).1 with failure | _ | keeper
    · rfl
    · rfl
    · rw [hkept keeper hclaim]
      rfl
  case order => exact hcourse.order
  case failure_iff =>
    intro failure
    rw [hcourse.answer_eq_error_iff]
    simp only [Step.failure?_eq_some_iff]
    constructor
    · rintro ⟨step, hstep, errno, ⟨call, hcall, herrno⟩, hfatal⟩
      exact ⟨step, hstep, call, hcall, errno, herrno, hfatal⟩
    · rintro ⟨step, hstep, call, hcall, errno, herrno, hfatal⟩
      exact ⟨step, hstep, errno, ⟨call, hcall, herrno⟩, hfatal⟩
  case occupied =>
    intro step hstep call hcall errno hfailure
    exact hcourse.answer_of_occupied hstep
      (Step.failure?_eq_some_iff.mpr ⟨call, hcall, hfailure⟩)
  case last =>
    intro step hstep call hcall errno hfailure hnotWaived
    exact calls_after_unwaived hcourse hstep hcall hfailure hnotWaived
  case free_iff =>
    rw [hcourse.answer_eq_true_iff.1]
    simp only [passes_iff]
  case complete => exact hcourse.answer_eq_true_iff.2
  case listing =>
    intro call hcall count hlists
    obtain ⟨step, hstep, hmade⟩ := List.mem_flatMap.mp hcall
    exact p.opened_before_listing hcourse hstep (Step.aim_of_listing hmade hlists)

end Prober

end PortWarden
