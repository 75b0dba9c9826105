import PortWarden.Proofs.Accounting
import PortWarden.Proofs.Arguments
import Mathlib.Algebra.GroupWithZero.Nat

/-!
# Ports held by a run

A run that is to hold a port reports it while the socket of its claim listens, sleeps, and closes
the socket last. The sockets of all other checks and claims were closed before the report, so the
one that is held is the only one that is open while the run sleeps.
-/

namespace PortWarden

/-- A sleep on record. -/
def Call.nap (seconds : Nat) : Call := ⟨none, .sleep seconds, none⟩

/-- What is asked for is not to sleep. -/
def Action.IsAwake (action : Action) : Prop := ∀ seconds, action ≠ .sleep seconds

/-- A nap is a sleep. -/
theorem not_isAwake_nap (seconds : Nat) : ¬(Call.nap seconds).action.IsAwake :=
  fun hawake => hawake seconds rfl

/-- To close a socket is not to sleep. -/
theorem isAwake_close (id : SocketId) : (Call.on id .close).action.IsAwake :=
  fun seconds => by simp [Call.on]

/-- The sockets that are open after calls. -/
def openAfter (calls : List Call) : List SocketId :=
  (openedBy calls).filter (· ∉ closedBy calls)

/-- Quiet calls leave the same sockets open. -/
theorem openAfter_append {calls more : List Call} (hmore : Quiet more) :
    openAfter (calls ++ more) = openAfter calls := by
  simp [openAfter, hmore.openedBy, hmore.closedBy]

/-- Naps are quiet. -/
theorem quiet_naps (naps : List Nat) : Quiet (naps.map Call.nap) := by
  intro call hcall
  obtain ⟨nap, -, rfl⟩ := List.mem_map.mp hcall
  exact ⟨rfl, rfl⟩

namespace Host

/-- The calls of a host in order open the sockets that its record tells. -/
theorem openedBy_calls (h : Host) : openedBy h.calls = (openedBy h.trace).reverse :=
  List.filterMap_reverse

/-- The calls of a host in order close the sockets that its record tells. -/
theorem closedBy_calls (h : Host) : closedBy h.calls = (closedBy h.trace).reverse :=
  List.filterMap_reverse

/-- On a balanced host the sockets that are open are those that the calls leave open. -/
theorem Balanced.openAfter_perm {h : Host} (hb : h.Balanced) : (openAfter h.calls).Perm h.ids := by
  have hopened := hb.accounts.symm.filter (· ∉ closedBy h.trace)
  have hclosed : (closedBy h.trace).filter (· ∉ closedBy h.trace) = [] := by simp
  have hids : h.ids.filter (· ∉ closedBy h.trace) = h.ids :=
    List.filter_eq_self.mpr fun id hid => by simpa using hb.not_closed_of_mem_ids hid
  rw [List.filter_append, hclosed, hids, List.nil_append] at hopened
  simp only [openAfter, openedBy_calls, closedBy_calls, List.mem_reverse]
  rw [List.filter_reverse]
  exact (List.reverse_perm _).trans hopened

/-- Sleeping takes naps that add up to its time, and does nothing else. -/
theorem sleep_naps (h : Host) (seconds : Nat) :
    ∃ naps : List Nat, (∀ nap ∈ naps, 0 < nap) ∧ naps.sum = seconds ∧
      h.sleep seconds = { h with trace := (naps.map Call.nap).reverse ++ h.trace } := by
  fun_induction Host.sleep h seconds with
  | case1 h => exact ⟨[], by simp, rfl, rfl⟩
  | case2 h seconds hsome hshort =>
    exact ⟨[seconds], by simp; omega, by simp, rfl⟩
  | case3 h seconds hsome hlong ih =>
    obtain ⟨naps, hnaps, hsum, hsleep⟩ := ih
    have hlongest : 0 < longestSleep := by decide
    refine ⟨longestSleep :: naps, ?_, ?_, ?_⟩
    · exact List.forall_mem_cons.mpr ⟨hlongest, hnaps⟩
    · rw [List.sum_cons, hsum]
      omega
    · rw [hsleep]
      simp [record, Call.nap]

end Host

namespace Prober

variable {p : Prober} {w w' : Logged Host} {keeper : Keeper} {id : SocketId}

/-- The last calls of a claim have made the socket of its keeper listen. -/
theorem claim_listens {target : Endpoint} (hrun : p.claim target w = (.ok (some keeper), w'))
    (hsocket : keeper.socket = some id) :
    w'.state.calls = w.state.calls ++
      Call.on id (.create target.family .stream) :: (listenActions target).map (Call.on id) := by
  obtain ⟨hstate, hresult⟩ := p.claim_outcome target w
  obtain ⟨step, -, hstep⟩ := openListener_step target w.state
  rw [hrun] at hstate hresult
  rcases hopen : openListener target w.state with ⟨errno | opened, m⟩ <;>
    rw [hopen] at hstate hresult hstep
  · obtain rfl := keeper_of_resultOfError hresult.symm
    cases hsocket
  · obtain ⟨rfl, hcalls⟩ := hstep
    cases hresult
    cases hsocket
    have hmade : m.calls ++ [Call.on id .close] = (w.state.calls ++
        Call.on id (.create target.family .stream) :: (listenActions target).map (Call.on id)) ++
          [Call.on id .close] := by
      simpa [Step.calls] using hcalls
    rw [show w'.state = m from hstate]
    exact List.append_cancel_right hmade

/-- The last calls of a claim, on an address or on the whole host, have made the socket of its
keeper listen there. -/
theorem keep_listens {port : UInt16} {protocol : Protocol} {address : Option Address}
    (hrun : p.keep port protocol address w = (.ok (some keeper), w'))
    (hsocket : keeper.socket = some id) :
    let target := (address.getD .wildcard).endpoint port
    ∃ earlier, w'.state.calls = earlier ++
      Call.on id (.create target.family .stream) :: (listenActions target).map (Call.on id) := by
  intro target
  cases protocol with
  | multicast => cases hrun
  | stream =>
    cases address with
    | some address => exact ⟨_, claim_listens hrun hsocket⟩
    | none =>
      change p.claimEverywhere port w = _ at hrun
      rw [claimEverywhere_eq] at hrun
      obtain ⟨free, m, -, hclaim⟩ := chain_ok hrun
      cases free with
      | false => cases hclaim
      | true => exact ⟨_, claim_listens hclaim hsocket⟩

/-- A question about a port does not make the program sleep. -/
theorem isAwake_of_asks {entries : List InterfaceEntry} {protocol : Protocol}
    {address : Option Address} {port : UInt16} {action : Action}
    (hasks : p.Asks entries protocol address port action) : action.IsAwake := by
  rintro seconds rfl
  exact hasks

end Prober

/-- How a socket is held from a report to the end of a run: `reported` is the host at the report,
and `done` the one at the end. -/
structure Spans (target : Endpoint) (id : SocketId) (seconds : Nat) (reported done : Host) :
    Prop where
  /-- The last calls before the report have made the socket listen on the endpoint. -/
  listens : ∃ earlier, reported.calls = earlier ++
    Call.on id (.create target.family .stream) :: (listenActions target).map (Call.on id)
  /-- It is the only socket that is open at the report. -/
  sockets : reported.sockets = [Socket.listener id target]
  /-- Every other socket of the run was closed once before the report. -/
  others : ∀ other ∈ openedBy done.calls, other ≠ id →
    (closedBy reported.calls).count other = 1
  /-- Before the report the program has not slept. -/
  awake : ∀ call ∈ reported.calls, call.action.IsAwake
  /-- The program sleeps exactly if there is time to sleep. -/
  sleeps_iff : (∃ call ∈ done.calls, ¬call.action.IsAwake) ↔ 0 < seconds
  /-- After the report it sleeps for the whole time, and then closes the socket. -/
  naps : ∃ naps : List Nat, (∀ nap ∈ naps, 0 < nap) ∧ naps.sum = seconds ∧
    done.calls = reported.calls ++ naps.map Call.nap ++ [Call.on id .close]
  /-- Whenever the program sleeps, the socket is open and no other one is. -/
  asleep : ∀ before call after, done.calls = before ++ call :: after → ¬call.action.IsAwake →
    openAfter before = [id]
  /-- The socket is closed exactly once. -/
  closed : (closedBy done.calls).count id = 1
  /-- In the end no socket is open. -/
  ends : done.sockets = []

/-- Where calls are followed by naps and one more call, before each sleep come those calls and some
of the naps. -/
theorem before_nap {calls before after : List Call} {naps : List Nat} {last call : Call}
    (hsplit : calls ++ (naps.map Call.nap ++ [last]) = before ++ call :: after)
    (hcalls : ∀ c ∈ calls, c.action.IsAwake) (hlast : last.action.IsAwake)
    (hcall : ¬call.action.IsAwake) : ∃ taken : List Nat, before = calls ++ taken.map Call.nap := by
  rcases List.append_eq_append_iff.mp hsplit with ⟨rest, rfl, hrest⟩ | ⟨rest, rfl, hrest⟩
  · rcases List.append_eq_append_iff.mp hrest with ⟨rest', -, hend⟩ | ⟨rest', hnaps, -⟩
    · have hsame : call = last := by
        have hmem : call ∈ [last] := by rw [hend]; simp
        exact List.mem_singleton.mp hmem
      exact absurd (hsame ▸ hlast) hcall
    · obtain ⟨taken, _, -, rfl, -⟩ := List.map_eq_append_iff.mp hnaps
      exact ⟨taken, rfl⟩
  · cases rest with
    | nil => exact ⟨[], by simp⟩
    | cons first rest =>
      obtain ⟨rfl, -⟩ := List.cons.inj hrest
      exact absurd (hcalls call (by simp)) hcall

namespace Host

variable {h : Host} {target : Endpoint} {id : SocketId}

/-- A host on which nothing but one listener is open holds it while it sleeps, if it closes it
then. -/
theorem spans_of_listener (hb : h.Balanced) (hsockets : h.sockets = [Socket.listener id target])
    (hlistens : ∃ earlier, h.calls = earlier ++
      Call.on id (.create target.family .stream) :: (listenActions target).map (Call.on id))
    (hawake : ∀ call ∈ h.calls, call.action.IsAwake) (seconds : Nat) :
    Spans target id seconds h ((h.sleep seconds).close id) := by
  have hids : h.ids = [id] := by rw [ids, hsockets]; rfl
  have hopen : openAfter h.calls = [id] := by
    have hperm := hb.openAfter_perm
    rwa [hids, List.perm_singleton] at hperm
  obtain ⟨naps, hnaps, hsum, hsleep⟩ := h.sleep_naps seconds
  have hdone : ((h.sleep seconds).close id).calls =
      h.calls ++ (naps.map Call.nap ++ [Call.on id .close]) := by
    rw [calls_close, hsleep]
    simp [calls]
  have hlast : openedBy [Call.on id .close] = [] ∧ closedBy [Call.on id .close] = [id] :=
    ⟨rfl, rfl⟩
  constructor
  case listens => exact hlistens
  case sockets => exact hsockets
  case awake => exact hawake
  case sleeps_iff =>
    rw [hdone, ← hsum, List.sum_pos_iff_exists_pos_nat]
    constructor
    · rintro ⟨call, hcall, hasleep⟩
      rcases List.mem_append.mp hcall with hbefore | hafter
      · exact absurd (hawake call hbefore) hasleep
      · rcases List.mem_append.mp hafter with hnap | hclose
        · obtain ⟨nap, hmem, rfl⟩ := List.mem_map.mp hnap
          exact ⟨nap, hmem, hnaps nap hmem⟩
        · obtain rfl := List.mem_singleton.mp hclose
          exact absurd (isAwake_close id) hasleep
    · rintro ⟨nap, hnap, -⟩
      refine ⟨Call.nap nap, ?_, not_isAwake_nap nap⟩
      exact List.mem_append_right _ (List.mem_append_left _ (List.mem_map_of_mem hnap))
  case naps => exact ⟨naps, hnaps, hsum, by rw [hdone, List.append_assoc]⟩
  case asleep =>
    intro before call after hsplit hcall
    rw [hdone] at hsplit
    obtain ⟨taken, rfl⟩ := before_nap hsplit hawake (isAwake_close id) hcall
    rw [openAfter_append (quiet_naps taken), hopen]
  case others =>
    intro other hother hne
    have hopened : other ∈ openedBy h.trace := by
      simpa [hdone, (quiet_naps naps).openedBy, openedBy_calls, hlast.1] using hother
    have hgone : other ∉ h.ids := by simpa [hids] using hne
    rw [closedBy_calls, List.count_reverse, hb.count_closed, if_pos ⟨hopened, hgone⟩]
  case closed =>
    have hnot : id ∉ closedBy h.trace := hb.not_closed_of_mem_ids (by simp [hids])
    simp [hdone, (quiet_naps naps).closedBy, closedBy_calls, hlast.2,
      List.count_eq_zero.mpr hnot]
  case ends =>
    simp [hsleep, close, record, hsockets, Socket.listener]

end Host

namespace Prober

/-- A claim that does not waive errors, made where nothing is open, leaves one listener open, which
is held from then on. -/
theorem spans_of_keep {p : Prober} {port : UInt16} {protocol : Protocol} {address : Option Address}
    {keeper : Keeper} {l l' : Logged Host} (hb : l.state.Balanced) (hnone : l.state.sockets = [])
    (hawake : ∀ call ∈ l.state.calls, call.action.IsAwake)
    (hkeep : p.keep port protocol address l = (.ok (some keeper), l'))
    (hlocal : ∀ a ∈ address, a.isLinkLocal = true → p.options.linkLocalWorkaround = false)
    (seconds : Nat) :
    ∃ id, keeper.socket = some id ∧
      Spans ((address.getD .wildcard).endpoint port) id seconds l'.state
        ((l'.state.sleep seconds).close id) := by
  let target := (address.getD .wildcard).endpoint port
  have hgives : p.Gives target keeper :=
    p.keep_answers port protocol address l _ l' hkeep keeper rfl
  obtain ⟨id, hsocket⟩ : ∃ id, keeper.socket = some id := by
    refine Option.ne_none_iff_exists'.mp fun hwaived => ?_
    obtain ⟨hlinkLocal, hworkaround⟩ := hgives.waived hwaived
    cases address with
    | none => cases hlinkLocal
    | some a =>
      rw [hlocal a rfl hlinkLocal] at hworkaround
      cases hworkaround
  have hleaves := p.keep_leavesOpen port protocol address l hb
  have hasked := p.keep_asksOnly l.state.interfaces port protocol address l rfl
  rw [hkeep] at hleaves hasked
  have hsockets : l'.state.sockets = [Socket.listener id target] := by
    rw [hleaves.sockets, hnone]
    simp [leftBy, keptAt, hsocket, target]
  have hawake' : ∀ call ∈ l'.state.calls, call.action.IsAwake := by
    obtain ⟨more, hcalls, hasks⟩ := hasked.calls
    intro call hcall
    rw [hcalls] at hcall
    rcases List.mem_append.mp hcall with hbefore | hmore
    · exact hawake call hbefore
    · exact isAwake_of_asks (hasks call hmore)
  exact ⟨id, hsocket, Host.spans_of_listener hleaves.balanced hsockets
    (keep_listens hkeep hsocket) hawake' seconds⟩

end Prober

namespace CommandLine

/-- Giving a claim back after its time closes its socket. -/
theorem Hold.host_finish {keeper : Keeper} {id : SocketId} (hsocket : keeper.socket = some id)
    (seconds : UInt64) (w : World Host) :
    (Hold.finish ⟨keeper, seconds⟩ w).host = (w.host.sleep seconds.toNat).close id := by
  obtain ⟨port, socket⟩ := keeper
  cases hsocket
  rfl

namespace Command

variable {c : Command} {config : Config}

/-- A command that is to hold a port reports the one that its last claim was given for. The
questions before it have left nothing open, and have not made the program sleep. -/
theorem claimed_of_settles {seconds : UInt64} (htask : c.task.seconds? = some seconds)
    {report : Report} {hold : Option Hold} {h h' : Host}
    (hsettles : c.Settles config report hold h h') :
    ∃ keeper l l', report = ⟨c.protocol, keeper.port, .held seconds⟩ ∧
      hold = some ⟨keeper, seconds⟩ ∧ (h.Balanced → h.Leaves l.state []) ∧
      h.Asked Action.IsAwake l.state ∧
      config.prober.keep keeper.port c.protocol (config.addressFor c.protocol) l =
        (.ok (some keeper), l') ∧ l'.state = h' := by
  unfold Settles at hsettles
  cases hsame : c.task with
  | check port | pickInRange range | pick membership =>
    rw [hsame] at htask
    cases htask
  | hold port seconds =>
    rw [hsame] at htask hsettles
    cases htask
    obtain ⟨keeper, l, l', rfl, rfl, rfl, hkeep, hstate⟩ := hsettles
    have hport : keeper.port = port :=
      (config.prober.keep_answers port c.protocol _ l _ l' hkeep keeper rfl).port
    subst hport
    exact ⟨keeper, l, l', rfl, rfl, fun hb => .refl hb, .refl _ _, hkeep, hstate⟩
  | holdRandom membership seconds =>
    rw [hsame] at htask hsettles
    cases htask
    obtain ⟨keeper, rfl, rfl, -, l, l', hleaves, hasked, hkeep, hstate⟩ := hsettles
    refine ⟨keeper, l, l', rfl, rfl, hleaves, hasked.mono ?_, hkeep, hstate⟩
    rintro action ⟨port, -, hasks⟩
    exact Prober.isAwake_of_asks hasks

/-- A run that succeeds has written its report. -/
theorem run_of_success {fuel : Nat} {s : Surroundings} {w w' : World Host} {outcome : Outcome}
    (hrun : c.execute fuel s w = (some outcome, w')) (hsuccess : outcome.exitCode = successCode) :
    ∃ report : Report, c.run fuel s w = (.ok report, w') ∧
      outcome.output = report.render c.style := by
  unfold execute at hrun
  rcases hending : c.run fuel s w with ⟨setback | report, m⟩ <;> rw [hending] at hrun <;>
    obtain ⟨houtcome, rfl⟩ := Prod.mk.inj hrun
  · cases setback with
    | unfinished => cases houtcome
    | _ =>
      cases houtcome
      cases hsuccess
  · cases houtcome
    exact ⟨report, rfl, rfl⟩

end Command

/-- A command line that is read to its end is refused only for a fault. -/
theorem Given.fault_of_command {g : Given} {detour : Detour}
    (hrefused : g.command = .error detour) : ∃ fault, detour = .fault fault := by
  unfold Given.command at hrefused
  split at hrefused <;> cases hrefused <;> exact ⟨_, rfl⟩

/-- A command line that succeeds, and whose arguments can be read, makes a command. -/
theorem command_of_success {texts : List String} {g : Given} (hgiven : Given.ofTexts texts = .ok g)
    {fuel : Nat} {s : Surroundings} {w w' : World Host} {outcome : Outcome}
    (hrun : execute texts fuel s w = (some outcome, w'))
    (hsuccess : outcome.exitCode = successCode) :
    ∃ c, g.command = .ok c ∧ Command.read texts = .ok c ∧
      c.execute fuel s w = (some outcome, w') := by
  have hread : Command.read texts = g.command := by
    rw [Command.read_eq, hgiven]
    rfl
  unfold execute at hrun
  cases hcommand : g.command with
  | ok c =>
    rw [hread, hcommand] at hrun
    exact ⟨c, rfl, hread.trans hcommand, hrun⟩
  | error detour =>
    rw [hread, hcommand] at hrun
    obtain ⟨fault, rfl⟩ := Given.fault_of_command hcommand
    cases hrun
    cases hsuccess

/-- How a run holds the port that it reports. -/
structure HeldThroughout (c : Command) (config : Config) (seconds : UInt64) (fuel : Nat)
    (s : Surroundings) (w w' : World Host) (port : UInt16) : Prop where
  /-- The configuration is the one that is found out. -/
  found : (c.config s w).1 = .ok config
  /-- What is done before the report ends with the port and a claim of it. Unless the address of the
  configuration is a link-local one on which failures are taken for free ports, the port is held
  there, or on the wildcard if there is no address, from before the report to the end. -/
  held : ∃ hold m, c.settle fuel s w = (.ok (⟨c.protocol, port, .held seconds⟩, some hold), m) ∧
    ((∀ a ∈ config.addressFor c.protocol, a.isLinkLocal = true →
        config.linkLocalWorkaround = false) →
      ∃ id, Spans (((config.addressFor c.protocol).getD .wildcard).endpoint port) id seconds.toNat
        m.host w'.host)

/-- A run that succeeds with arguments by which a port is to be held holds the port that it reports
for the whole time, whatever the configuration is and whichever calls fail. -/
theorem held_from_report_to_end {texts : List String} {g : Given} {seconds : UInt64}
    (hgiven : Given.ofTexts texts = .ok g) (hkeep : g.keep = some seconds) {fuel : Nat}
    {s : Surroundings} {w w' : World Host} (hsockets : w.host.sockets = [])
    (htrace : w.host.trace = []) {outcome : Outcome}
    (hrun : execute texts fuel s w = (some outcome, w'))
    (hsuccess : outcome.exitCode = successCode) :
    ∃ c config port, Command.read texts = .ok c ∧
      outcome.output = Report.render ⟨c.protocol, port, .held seconds⟩ c.style ∧
      Told.ofOutput? outcome.output c.style = some ⟨c.protocol, port, none⟩ ∧
      HeldThroughout c config seconds fuel s w w' port := by
  obtain ⟨c, hcommand, hread, hexecute⟩ := command_of_success hgiven hrun hsuccess
  obtain ⟨report, hreport, houtput⟩ := Command.run_of_success hexecute hsuccess
  obtain ⟨⟨_, hold⟩, m, hsettle, hrest⟩ := chain_ok hreport
  cases hrest
  rcases c.settle_course hsettle with ⟨-, ⟨_, hsetback, -⟩ | ⟨config, hunder⟩⟩
  · cases hsetback
  obtain ⟨h, hlooks, -, hsettles⟩ := hunder.course
  have htask : c.task.seconds? = some seconds :=
    (Given.seconds?_task (Given.taken_of_texts hgiven) hcommand).trans hkeep
  obtain ⟨keeper, l, l', rfl, rfl, hleaves, hasked, hclaim, hstate⟩ :=
    Command.claimed_of_settles htask (hsettles _ _ rfl)
  have htold : Told.ofOutput? outcome.output c.style = some ⟨c.protocol, keeper.port, none⟩ := by
    rw [houtput]
    exact Report.ofOutput?_render _ c.style
  refine ⟨c, config, keeper.port, hread, houtput, htold, hunder.found, _, m, hsettle,
    fun hlocal => ?_⟩
  have hlooked := hlooks.leaves (.of_untouched hsockets htrace)
  have hbefore := hlooked.trans (hleaves hlooked.balanced)
  have hnone : l.state.sockets = [] := by rw [hbefore.sockets, hsockets]; rfl
  have hawake : ∀ call ∈ l.state.calls, call.action.IsAwake := by
    have hlookups : w.host.Asked Action.IsAwake h :=
      hlooks.asked.mono fun action => by rintro ⟨name, rfl⟩; simp [Action.IsAwake]
    obtain ⟨more, hcalls, hmore⟩ := (hlookups.trans hasked).calls
    intro call hcall
    rw [hcalls, Host.calls, htrace] at hcall
    exact hmore call hcall
  obtain ⟨id, hsocket, hspans⟩ :=
    Prober.spans_of_keep hbefore.balanced hnone hawake hclaim hlocal seconds.toNat
  rw [hstate] at hspans
  have hdone : (Command.finish (some ⟨keeper, seconds⟩) m).host =
      (m.host.sleep seconds.toNat).close id := Hold.host_finish hsocket seconds m
  refine ⟨id, ?_⟩
  rw [hdone]
  exact hspans

/-- The command that holds port 20001 on `127.0.0.1` for two seconds has its socket open there while
it sleeps, and tells of that port as a sentence or as an object. -/
theorem held_on_loopback :
    let texts := ["stream", "20001", "--addr", "127.0.0.1", "--keep", "2"]
    let Holds (texts : List String) (style : Style) (output : String) : Prop :=
      ∃ g outcome w', Given.ofTexts texts = .ok g ∧ g.keep = some 2 ∧
        execute texts 0 {} Session.onLoopback.world = (some outcome, w') ∧
        outcome.exitCode = successCode ∧ outcome.output = output ∧
        Told.ofOutput? output style = some ⟨.stream, 20001, none⟩ ∧
        ∃ id m, Spans ((Address.v4 .loopback).endpoint 20001) id 2 m w'.host
    Holds texts .text "\nHolding socket port 20001 for 2s\n\n" ∧
      Holds (texts ++ ["--json"]) .json
        "\x7b\"kept\":true,\"port\":20001,\"protocol\":\"socket\"\x7d\n" := by
  intro texts Holds
  let given (json : Bool) (arguments : List Argument) : Given := {
    protocol := some .stream
    port := some 20001
    address := some "127.0.0.1"
    keep := some 2
    json, arguments }
  let command (style : Style) : Command := {
    protocol := .stream
    task := .hold 20001 2
    address := some "127.0.0.1"
    style }
  let config : Config := { bindAddress := some (.v4 .loopback) }
  have hlocal : ∀ a ∈ config.addressFor .stream, a.isLinkLocal = true →
      config.linkLocalWorkaround = false := by
    rintro a ⟨rfl⟩ ⟨⟩
  have hholds {texts : List String} {g : Given} {style : Style} {outcome : Outcome}
      (hgiven : Given.ofTexts texts = .ok g) (hkeep : g.keep = some 2)
      (hread : Command.read texts = .ok (command style))
      (hfound : ((command style).config {} Session.onLoopback.world).1 = .ok config)
      (hsettled : ((command style).settle 0 {} Session.onLoopback.world).1 =
        .ok (⟨.stream, 20001, .held 2⟩, some ⟨⟨20001, some 1⟩, 2⟩))
      (hending : (execute texts 0 {} Session.onLoopback.world).1 = some outcome)
      (hsuccess : outcome.exitCode = successCode) : Holds texts style outcome.output := by
    rcases hrun : execute texts 0 {} Session.onLoopback.world with ⟨result, w'⟩
    rw [hrun] at hending
    obtain rfl : result = some outcome := hending
    obtain ⟨c', config', port, hread', -, htold, hheld⟩ :=
      held_from_report_to_end hgiven hkeep rfl rfl hrun hsuccess
    obtain rfl : command style = c' := Except.ok.inj (hread.symm.trans hread')
    obtain rfl : config = config' := Except.ok.inj (hfound.symm.trans hheld.found)
    obtain ⟨hold, m, hsettle, hspans⟩ := hheld.held
    rw [hsettle] at hsettled
    cases hsettled
    obtain ⟨id, hspan⟩ := hspans hlocal
    exact ⟨g, outcome, w', hgiven, hkeep, hrun, hsuccess, rfl, htold, id, m.host, hspan⟩
  constructor
  · let g := given false [.protocol, .port, .address, .keep]
    let outcome : Outcome := {
      exitCode := successCode
      output := "\nHolding socket port 20001 for 2s\n\n" }
    have hgiven : Given.ofTexts texts = .ok g := by decide +kernel
    have hending : (execute texts 0 {} Session.onLoopback.world).1 = some outcome := by
      decide +kernel
    exact hholds hgiven rfl (by decide +kernel) (by decide +kernel) (by decide +kernel) hending rfl
  · let g := given true [.protocol, .port, .address, .keep, .json]
    let outcome : Outcome := {
      exitCode := successCode
      output := "\x7b\"kept\":true,\"port\":20001,\"protocol\":\"socket\"\x7d\n" }
    have hgiven : Given.ofTexts (texts ++ ["--json"]) = .ok g := by decide +kernel
    have hending : (execute (texts ++ ["--json"]) 0 {} Session.onLoopback.world).1 =
        some outcome := by
      decide +kernel
    exact hholds hgiven rfl (by decide +kernel) (by decide +kernel) (by decide +kernel) hending rfl

end CommandLine

end PortWarden
