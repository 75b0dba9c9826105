import PortWarden.Proofs.Finding
import PortWarden.Proofs.Governing
import PortWarden.Proofs.Guarding
import PortWarden.Proofs.Telling

/-!
# Runs of commands

A run that ends has written one report, or nothing and has failed. What it asks its host for,
besides names and the time to hold a claim, is about ports on the address that its configuration
gives; and what it reports is what its last question came to.
-/

namespace PortWarden

/-- The prober that probes as a configuration says, on the interfaces of the host. -/
abbrev Config.prober (config : Config) : Prober := { options := config.probeOptions }

/-- Making the service of the process leaves the host alone. -/
theorem Service.host_ofProcess (config : Config) (w : World Host) :
    (ofProcess config w).2.host = w.host := by
  have hnotes (events : List Event) (w : World Host) :
      (events.foldl World.note w).host = w.host := by
    induction events generalizing w with
    | nil => rfl
    | cons event events ih => exact ih (w.note event)
  simp only [ofProcess]
  split <;> exact hnotes _ _

/-- The service of the process is made for any valid configuration. -/
theorem Service.ofProcess_of_valid {config : Config} (hvalid : config.Valid) (w : World Host) :
    ∃ generator m, ofProcess config w =
      (.ok ⟨config, config.prober, generator⟩, m) ∧ m.host = w.host := by
  have hhost := host_ofProcess config w
  have hmade (generator : GeneratorId) : ofGenerator config generator =
      .ok ⟨config, config.prober, generator⟩ :=
    ofProber_eq_ok_iff.mpr ⟨rfl, hvalid⟩
  refine ⟨(w.randomness.share config.fastRandom).1, (ofProcess config w).2, ?_, hhost⟩
  simp only [ofProcess, hmade]

/-- Sleeping asks for time and nothing else. -/
theorem Host.sleep_asked {may : Action → Prop} (hsleep : ∀ seconds, may (.sleep seconds)) (h : Host)
    (seconds : Nat) : h.Asked may (h.sleep seconds) := by
  fun_induction Host.sleep h seconds with
  | case1 h => exact .refl may h
  | case2 h seconds hsome hshort => exact .record h (hsleep seconds)
  | case3 h seconds hsome hlong ih => exact (Asked.record h (hsleep longestSleep)).trans ih

/-- A question that is answered on the whole state is answered so on the host. -/
theorem Probing.onWorld_ok {σ α : Type} {question : Probing σ α} {w w' : World σ} {a : α}
    (hrun : question.onWorld w = (.ok a, w')) : question w.toLogged = (.ok a, w'.toLogged) := by
  simp only [onWorld] at hrun
  rcases hask : question w.toLogged with ⟨failure | b, l⟩ <;> rw [hask] at hrun <;> cases hrun
  rfl

namespace CommandLine

/-- What the arguments of a command line give. -/
def Given.ofTexts (texts : List String) : Except Detour Given := do
  let r ← Reading.readAll texts {}
  return (← r.settle).given

/-- A command is made of what the arguments give. -/
theorem Command.read_eq (texts : List String) :
    Command.read texts = Given.ofTexts texts >>= Given.command := by
  simp only [Command.read, Given.ofTexts, bind_assoc, pure_bind]

/-- What was given makes a command exactly if nothing in it conflicts and there is a protocol. -/
theorem Given.command_eq_ok_iff {g : Given} {c : Command} : g.command = .ok c ↔
    g.conflict? = none ∧ g.protocol = some c.protocol ∧ c = {
      protocol := c.protocol
      task := g.task
      address := g.address
      configPath := g.configPath
      style := if g.json then .json else .text
      verbosity := g.verbosity } := by
  unfold Given.command
  constructor
  · intro hcommand
    split at hcommand
    · cases hcommand
    · cases hcommand
    · rename_i hconflict hprotocol
      cases hcommand
      exact ⟨hconflict, hprotocol, rfl⟩
  · rintro ⟨hconflict, hprotocol, hc⟩
    rw [hconflict, hprotocol]
    exact congrArg Except.ok hc.symm

/-- What a command asks for is what was given. -/
theorem Given.of_command {g : Given} {c : Command} (hcommand : g.command = .ok c) :
    c.task = g.task ∧ c.address = g.address ∧ g.protocol = some c.protocol := by
  obtain ⟨-, hprotocol, hc⟩ := command_eq_ok_iff.mp hcommand
  exact ⟨congrArg Command.task hc, congrArg Command.address hc, hprotocol⟩

namespace Running

variable {α : Type} {question : Allocating Host α} {w w' : World Host}

/-- A question that is answered was asked. -/
theorem asking_ok {a : α} (hrun : asking question w = (.ok a, w')) :
    question w = (.ok a, w') := by
  unfold asking at hrun
  rcases hask : question w with ⟨(failure | _ | _) | b, m⟩ <;> rw [hask] at hrun
  · cases hrun
  · cases hrun
  · cases hrun
  · cases hrun
    rfl

/-- A question asks for what it asks for. -/
theorem asking_asksOnly {entries : List InterfaceEntry} {may : Action → Prop}
    (hquestion : AsksOnly World.host entries may question) :
    AsksOnly World.host entries may (asking question) := by
  intro w hentries
  have hasked := hquestion w hentries
  unfold asking
  rcases hask : question w with ⟨(failure | _ | _) | b, m⟩ <;> rw [hask] at hasked <;> exact hasked

/-- A question aborts the program only if it draws from inverted bounds. -/
theorem asking_fails (hquestion : Fails question (· ≠ .emptyRange)) :
    Fails (asking question) (· ≠ .aborted) := by
  intro w e w' hrun
  unfold asking at hrun
  rcases hask : question w with ⟨(failure | _ | _) | b, m⟩ <;> rw [hask] at hrun <;> cases hrun
  · simp
  · exact absurd rfl (hquestion w _ _ hask)
  · simp

end Running

namespace Command

variable (c : Command)

/-- An endpoint on which a port is checked: one on the address, or else one that has to be free
before a port is free on the whole host. -/
def ChecksOn (entries : List InterfaceEntry) (address : Option Address) (target : Endpoint) :
    Prop :=
  match address with
  | some address => ∃ port, target = ⟨⟨address, 0⟩, port⟩
  | none => ∃ port, InterfaceSource.system.Requires entries port target

/-- The group in which multicast ports are checked under a configuration. -/
def groupOf (config : Config) : Address := config.group.getD (.v4 ⟨239, 192, 81, 1⟩)

/-- What a run may ask the host for under a configuration. Stream ports are tried on the address of
that, and multicast ports are asked about in its group, from a socket on any port. -/
def MayAsk (config : Config) (entries : List InterfaceEntry) : Action → Prop
  | .bind target =>
    match c.protocol with
    | .stream => ChecksOn entries config.bindAddress target
    | .multicast => target = ⟨⟨.v4 ⟨0, 0, 0, 0⟩, 0⟩, 0⟩ ∨
        target = ⟨⟨.v6 ⟨.replicate 8 0⟩, 0⟩, 0⟩
  | .send _ target => c.protocol = .multicast ∧ ∃ port, target = ⟨⟨groupOf config, 0⟩, port⟩
  | .joinOnInterface group _ => c.protocol = .multicast ∧ groupOf config = .v4 group
  | .joinOnIndex group _ => c.protocol = .multicast ∧ groupOf config = .v6 group
  | .listen _ | .listInterfaces _ => c.protocol = .stream
  | .timeout _ | .multicastInterface _ | .receive _ => c.protocol = .multicast
  | .create _ _ | .reuseAddress | .close | .resolve _ | .sleep _ => True

/-- What a question about a port on the address of the configuration asks for may be asked for. -/
theorem mayAsk_of_asks {config : Config} {entries : List InterfaceEntry} {port : UInt16}
    {action : Action} (hasks : config.prober.Asks entries c.protocol (config.addressFor c.protocol)
      port action) : c.MayAsk config entries action := by
  have hgroup : config.group.getD config.prober.options.group = groupOf config := by
    unfold groupOf
    cases hset : config.group with
    | none => simp [Config.probeOptions, hset, defaultGroup]
    | some group => rfl
  cases hprotocol : c.protocol with
  | stream =>
    rw [hprotocol] at hasks
    cases action with
    | bind target =>
      simp only [MayAsk, hprotocol]
      unfold ChecksOn
      change target ∈ _ at hasks
      cases haddress : config.bindAddress with
      | some address =>
        simp only [Config.addressFor, haddress] at hasks
        exact ⟨port, List.mem_singleton.mp hasks⟩
      | none =>
        simp only [Config.addressFor, haddress] at hasks
        refine ⟨port, InterfaceSource.requires_iff (h := { interfaces := entries }) |>.mpr hasks⟩
    | listen | listInterfaces => exact hprotocol
    | send | joinOnInterface | joinOnIndex => cases hasks.1
    | timeout | multicastInterface | receive => cases hasks
    | create | reuseAddress | close | resolve | sleep => exact True.intro
  | multicast =>
    rw [hprotocol] at hasks
    cases action with
    | bind target =>
      simp only [MayAsk, hprotocol]
      rw [show target = _ from hasks]
      cases ((config.addressFor .multicast).getD config.prober.options.group).family
      · exact .inl rfl
      · exact .inr rfl
    | send payload target =>
      obtain ⟨-, rfl⟩ := hasks
      refine ⟨hprotocol, port, ?_⟩
      change (config.group.getD config.prober.options.group).endpoint port = _
      rw [hgroup]
      rfl
    | joinOnInterface group interface | joinOnIndex group index =>
      refine ⟨hprotocol, ?_⟩
      have hjoined : config.group.getD config.prober.options.group = _ := hasks.2
      rw [hgroup] at hjoined
      exact hjoined
    | timeout | multicastInterface | receive => exact hprotocol
    | listen | listInterfaces => cases hasks
    | create | reuseAddress | close | resolve | sleep => exact True.intro

/-- Names may always be asked for. -/
theorem mayAsk_of_isLookup {config : Config} {entries : List InterfaceEntry} {action : Action}
    (hlookup : action.IsLookup) : c.MayAsk config entries action := by
  obtain ⟨name, rfl⟩ := hlookup
  exact True.intro

/-- What a report comes from: the last question before it, and the claim that is left to hold. -/
def Settles (config : Config) (report : Report) (hold : Option Hold) (h h' : Host) : Prop :=
  let p := config.prober
  let address := config.addressFor c.protocol
  match c.task with
  | .check port =>
    hold = none ∧ ∃ free l l', report = ⟨c.protocol, port, .checked free⟩ ∧ l.state = h ∧
      p.isAvailable port c.protocol address l = (.ok free, l') ∧ l'.state = h'
  | .hold port seconds =>
    ∃ keeper l l', report = ⟨c.protocol, port, .held seconds⟩ ∧ hold = some ⟨keeper, seconds⟩ ∧
      l.state = h ∧ p.keep port c.protocol address l = (.ok (some keeper), l') ∧ l'.state = h'
  | .pickInRange range =>
    hold = none ∧ report = ⟨c.protocol, report.port, .picked⟩ ∧
      range.contains report.port = true ∧
      p.Concludes range c.protocol address (p.isAvailable report.port c.protocol address) true h h'
  | .pick membership =>
    hold = none ∧ report = ⟨c.protocol, report.port, .picked⟩ ∧
      (config.rangeFor membership).contains report.port = true ∧
      p.Concludes (config.rangeFor membership) c.protocol address
        (p.isAvailable report.port c.protocol address) true h h'
  | .holdRandom membership seconds =>
    ∃ keeper, report = ⟨c.protocol, keeper.port, .held seconds⟩ ∧ hold = some ⟨keeper, seconds⟩ ∧
      (config.rangeFor membership).contains keeper.port = true ∧
      p.Concludes (config.rangeFor membership) c.protocol address
        (p.keep keeper.port c.protocol address) (some keeper) h h'

section

variable {config : Config} (generator : GeneratorId) (fuel : Nat)

/-- What a command asks for under a configuration asks about ports on the address of that. -/
theorem settleWith_asksOnly (config : Config) (generator : GeneratorId) (fuel : Nat)
    {entries : List InterfaceEntry} :
    AsksOnly World.host entries (c.MayAsk config entries)
      (c.settleWith fuel ⟨config, config.prober, generator⟩) := by
  let p := config.prober
  let address := config.addressFor c.protocol
  have hport (port : UInt16) (action : Action)
      (haction : p.Asks entries c.protocol address port action) :
      c.MayAsk config entries action := c.mayAsk_of_asks haction
  have hrange (range : PortRange) (action : Action)
      (haction : p.AsksIn range entries c.protocol address action) :
      c.MayAsk config entries action := by
    obtain ⟨port, -, haction⟩ := haction
    exact hport port action haction
  unfold settleWith
  cases c.task with
  | check port =>
    have hask := ((p.isAvailable_asksOnly entries port c.protocol address).mono
      (hport port)).onWorld
    exact (Running.asking_asksOnly hask).chain fun free => .pure _
  | hold port seconds =>
    have hask := ((p.keep_asksOnly entries port c.protocol address).mono (hport port)).onWorld
    refine (Running.asking_asksOnly hask).chain fun kept => ?_
    cases kept with
    | none => exact .throw _
    | some keeper => exact .pure _
  | pickInRange range =>
    have hask := (Allocator.randomPortInRange_asksOnly p generator config fuel entries c.protocol
      address range.lower range.upper).mono (hrange range)
    refine (Running.asking_asksOnly hask).chain fun found => ?_
    cases found with
    | none => exact .throw _
    | some port => exact .pure _
  | pick membership =>
    have hask := (Allocator.randomPort_asksOnly p generator config fuel entries c.protocol address
      membership).mono (hrange _)
    exact (Running.asking_asksOnly hask).chain fun port => .pure _
  | holdRandom membership seconds =>
    have hask := (Allocator.randomKeeper_asksOnly p generator config fuel entries c.protocol address
      membership).mono (hrange _)
    exact (Running.asking_asksOnly hask).chain fun keeper => .pure _

/-- What a command asks for under a valid configuration draws from no inverted bounds. -/
theorem settleWith_fails (hvalid : config.Valid) :
    Fails (c.settleWith fuel ⟨config, config.prober, generator⟩)
      (· ≠ .aborted) := by
  let service : Service := ⟨config, config.prober, generator⟩
  have hdraw (membership : Bool) := Service.draw_ne_emptyRange
    (Service.usable_rangeFor (s := service) hvalid membership) fuel generator
  have hout := Service.outOfSteps_ne_emptyRange service.allocator
  have hpure {α : Type} (a : α) : Fails (pure a : Running α) (· ≠ .aborted) := .pure a
  unfold settleWith
  cases c.task with
  | check port =>
    exact (Running.asking_fails (Probing.onWorld_fails (Service.fails_ne_emptyRange _))).chain
      fun free => hpure _
  | hold port seconds =>
    refine (Running.asking_fails (Probing.onWorld_fails (Service.fails_ne_emptyRange _))).chain
      fun kept => ?_
    cases kept with
    | none => exact .throw (by simp)
    | some keeper => exact hpure _
  | pickInRange range =>
    have hask : Fails (service.randomPortInRange fuel range.lower range.upper c.protocol)
        (· ≠ .emptyRange) :=
      service.allocator.randomPortInRange_fails fuel (fun fault _ => by simp)
        (fun hfault => Service.draw_ne_emptyRange (PortRange.fault?_eq_none_iff.mp hfault) fuel
          generator) fun port => Service.fails_ne_emptyRange _
    refine (Running.asking_fails hask).chain fun found => ?_
    cases found with
    | none => exact .throw (by simp)
    | some port => exact hpure _
  | pick membership =>
    have hask : Fails (service.randomPort fuel c.protocol (config.addressFor c.protocol) membership)
        (· ≠ .emptyRange) :=
      service.allocator.randomPort_fails fuel membership (hdraw membership)
        (fun port => Service.fails_ne_emptyRange _) hout
    exact (Running.asking_fails hask).chain fun port => hpure _
  | holdRandom membership seconds =>
    have hask : Fails (service.randomKeeper fuel c.protocol (config.addressFor c.protocol)
        membership) (· ≠ .emptyRange) :=
      service.allocator.randomKeeper_fails fuel membership (hdraw membership)
        (fun port => Service.fails_ne_emptyRange _) hout
    exact (Running.asking_fails hask).chain fun keeper => hpure _

/-- What a report comes from is told by what the command asked for. -/
theorem settles_of_settleWith {w w' : World Host} {report : Report} {hold : Option Hold}
    (hrun : c.settleWith fuel ⟨config, config.prober, generator⟩ w =
      (.ok (report, hold), w')) : c.Settles config report hold w.host w'.host := by
  let p := config.prober
  unfold settleWith at hrun
  unfold Settles
  cases htask : c.task with
  | check port =>
    rw [htask] at hrun
    obtain ⟨free, m, hask, hrest⟩ := chain_ok hrun
    cases hrest
    exact ⟨rfl, free, _, _, rfl, rfl, Probing.onWorld_ok (Running.asking_ok hask), rfl⟩
  | hold port seconds =>
    rw [htask] at hrun
    obtain ⟨kept, m, hask, hrest⟩ := chain_ok hrun
    have hkept := Probing.onWorld_ok (Running.asking_ok hask)
    cases kept with
    | none => cases hrest
    | some keeper =>
      cases hrest
      have hport : keeper.port = port :=
        (p.keep_answers port c.protocol (config.addressFor c.protocol) _ _ _ hkept keeper rfl).port
      exact ⟨keeper, _, _, by rw [hport], rfl, rfl, hkept, rfl⟩
  | pickInRange range =>
    rw [htask] at hrun
    obtain ⟨found, m, hask, hrest⟩ := chain_ok hrun
    cases found with
    | none => cases hrest
    | some port =>
      cases hrest
      have hends := Allocator.randomPortInRange_concludes p generator config fuel
        (Running.asking_ok hask)
      exact ⟨rfl, rfl, hends⟩
  | pick membership =>
    rw [htask] at hrun
    obtain ⟨port, m, hask, hrest⟩ := chain_ok hrun
    cases hrest
    have hends := Allocator.randomPort_concludes p generator config fuel (Running.asking_ok hask)
    exact ⟨rfl, rfl, hends⟩
  | holdRandom membership seconds =>
    rw [htask] at hrun
    obtain ⟨keeper, m, hask, hrest⟩ := chain_ok hrun
    cases hrest
    have hends := Allocator.randomKeeper_concludes p generator config fuel (Running.asking_ok hask)
    exact ⟨keeper, rfl, rfl, hends⟩

end

section

variable (s : Surroundings)

/-- Finding out the configuration does not abort the program. -/
theorem config_fails : Fails (c.config s) (· ≠ .aborted) := by
  have hknown {α : Type} (context : Option Context) (known : Except Failure α) :
      Fails (Running.ofExcept context known) (· ≠ .aborted) := by
    intro w e w' hrun
    cases known <;> cases hrun
    simp
  have hconfiguring {α : Type} (context : Option Context) (question : Configuring α) :
      Fails (Running.configuring context question) (· ≠ .aborted) :=
    fun w e w' hrun => hknown context (question w.toLogged).1 _ e w' hrun
  have hfile : Fails (c.fileConfig s) (· ≠ .aborted) := by
    unfold fileConfig
    cases c.configPath with
    | none => exact .pure _
    | some path => exact hknown _ _
  refine hfile.chain fun base => (hconfiguring _ _).chain fun config => ?_
  unfold withAddress
  cases c.address with
  | none => exact .pure config
  | some text => exact (hconfiguring _ _).chain fun address => hknown _ _

/-- What is left after a report asks for time and for the close of the socket. -/
theorem finish_asked (config : Config) (entries : List InterfaceEntry) (hold : Option Hold)
    (w : World Host) : w.host.Asked (c.MayAsk config entries) (finish hold w).host := by
  have hsleep (seconds : Nat) : c.MayAsk config entries (.sleep seconds) := True.intro
  cases hold with
  | none => exact .refl _ w.host
  | some hold =>
    have hslept := w.host.sleep_asked hsleep hold.seconds.toNat
    obtain ⟨⟨port, _ | id⟩, seconds⟩ := hold
    · exact hslept
    · exact hslept.trans (.close _ id True.intro)

end

/-- What can be said of a run that has got as far as its configuration. -/
structure RunsUnder (s : Surroundings) (config : Config) (w w' : World Host)
    (ending : Except Setback Report) : Prop where
  /-- The configuration is the one that the layers give. -/
  configured : c.Configured s w.host.answer config
  /-- The host is asked only for what belongs to ports on the address of the configuration. -/
  asked : w.host.Asked (c.MayAsk config w.host.interfaces) w'.host
  /-- A report is what the last question came to, and after it a claim is held. -/
  settles : ∀ report, ending = .ok report → ∃ h hold m, w.host.Asked Action.IsLookup h ∧
    c.Settles config report hold h m.host ∧ w' = finish hold m

/-- What can be said of the way to a report that has got as far as its configuration. -/
structure SettlesUnder (s : Surroundings) (config : Config) (w m : World Host)
    (result : Except Setback (Report × Option Hold)) : Prop where
  /-- The configuration is the one that the layers give. -/
  configured : c.Configured s w.host.answer config
  /-- It is the one that is found out. -/
  found : (c.config s w).1 = .ok config
  /-- After names were looked up, the host is asked only for what belongs to ports on the address of
  the configuration, and the last question tells what is reported. -/
  course : ∃ h, w.host.LooksUp h ∧ h.Asked (c.MayAsk config h.interfaces) m.host ∧
    ∀ report hold, result = .ok (report, hold) → c.Settles config report hold h m.host

/-- The way to a report is not aborted. It looks names up only if the layers give no configuration,
and otherwise keeps to that. -/
theorem settle_course {fuel : Nat} {s : Surroundings} {w m : World Host}
    {result : Except Setback (Report × Option Hold)} (hrun : c.settle fuel s w = (result, m)) :
    result ≠ .error .aborted ∧
      ((∃ setback, result = .error setback ∧ w.host.LooksUp m.host ∧
          ∀ config, ¬c.Configured s w.host.answer config) ∨
        ∃ config, c.SettlesUnder s config w m result) := by
  have hlooks := c.config_looksUp s w
  have hfound (config : Config) :
      (c.config s w).1 = .ok config ↔ c.Configured s w.host.answer config :=
    c.config_eq_ok_iff s
  simp only [settle, chain_apply] at hrun
  rcases hconfig : c.config s w with ⟨setback | config, w₁⟩ <;>
    rw [hconfig] at hrun hlooks hfound
  · cases hrun
    have hnot := c.config_fails s w _ _ hconfig
    refine ⟨fun haborted => hnot (Except.error.inj haborted), .inl ⟨setback, rfl, hlooks, ?_⟩⟩
    intro config hconfigured
    cases (hfound config).mpr hconfigured
  have hconfigured := (hfound config).mp rfl
  obtain ⟨generator, w₂, hmade, hhost⟩ := Service.ofProcess_of_valid hconfigured.valid w₁
  have hservice : Running.asking (Service.ofProcess config) w₁ =
      (.ok ⟨config, config.prober, generator⟩, w₂) := by
    simp only [Running.asking, hmade]
  have hbefore : w.host.LooksUp w₂.host := by
    rw [hhost]
    exact hlooks
  have hasked := c.settleWith_asksOnly config generator fuel w₂ rfl
  simp only [hservice] at hrun
  rw [hrun] at hasked
  have hunder : c.SettlesUnder s config w m result := by
    refine ⟨hconfigured, by rw [hconfig], w₂.host, hbefore, hasked, ?_⟩
    rintro report hold rfl
    exact c.settles_of_settleWith generator fuel hrun
  refine ⟨?_, .inr ⟨config, hunder⟩⟩
  rintro rfl
  exact c.settleWith_fails generator fuel hconfigured.valid _ _ _ hrun rfl

/-- A run is not aborted. It asks for names only if the layers give no configuration, and otherwise
keeps to that. -/
theorem run_course {fuel : Nat} {s : Surroundings} {w w' : World Host}
    {ending : Except Setback Report} (hrun : c.run fuel s w = (ending, w')) :
    ending ≠ .error .aborted ∧
      ((∃ setback, ending = .error setback ∧ w.host.Asked Action.IsLookup w'.host ∧
          ∀ config, ¬c.Configured s w.host.answer config) ∨
        ∃ config, c.RunsUnder s config w w' ending) := by
  simp only [run, chain_apply] at hrun
  rcases hsettle : c.settle fuel s w with ⟨setback | ⟨report, hold⟩, m⟩ <;> rw [hsettle] at hrun
  · obtain ⟨hnot, hcourse⟩ := c.settle_course hsettle
    cases hrun
    refine ⟨fun haborted => hnot (congrArg _ (Except.error.inj haborted)), ?_⟩
    rcases hcourse with ⟨_, -, hlooks, hnone⟩ | ⟨config, hunder⟩
    · exact .inl ⟨setback, rfl, hlooks.asked, hnone⟩
    · obtain ⟨h, hlooks, hasked, -⟩ := hunder.course
      have hbefore := hlooks.asked
      rw [hbefore.interfaces] at hasked
      refine .inr ⟨config, hunder.configured, ?_, fun report hreport => ?_⟩
      · exact (hbefore.mono fun _ => c.mayAsk_of_isLookup).trans hasked
      · cases hreport
  · obtain ⟨-, hcourse⟩ := c.settle_course hsettle
    cases hrun
    refine ⟨by simp, .inr ?_⟩
    rcases hcourse with ⟨_, hsetback, -⟩ | ⟨config, hunder⟩
    · cases hsetback
    · obtain ⟨h, hlooks, hasked, hsettles⟩ := hunder.course
      have hbefore := hlooks.asked
      rw [hbefore.interfaces] at hasked
      have hall := (hbefore.mono fun _ => c.mayAsk_of_isLookup).trans hasked
      refine ⟨config, hunder.configured, hall.trans (c.finish_asked config _ hold m), ?_⟩
      rintro report' hreport
      cases hreport
      exact ⟨h, hold, m, hbefore, hsettles _ _ rfl, rfl⟩

end Command

/-- How what was given is reported. -/
def Given.style (g : Given) : Style := if g.json then .json else .text

/-- The range from which a port is picked: the one that was given, or else one of the
configuration. -/
def Given.rangeUnder (g : Given) (config : Config) : PortRange :=
  g.range.getD (if g.membership then config.membershipRange else config.range)

/-- What is told of a port, by what was given and the configuration. The host has been asked for
nothing but names before the port is checked, claimed or searched for. -/
structure Given.Backs (g : Given) (config : Config) (told : Told) (w w' : World Host) : Prop where
  /-- The protocol is the one that was given. -/
  protocol : g.protocol = some told.protocol
  /-- A port that was given is told to be free or not as the check of it was answered, which is the
  last thing that happens. -/
  checked : ∀ port ∈ g.port, g.keep = none → told.port = port ∧ ∃ free l l',
    told.free = some free ∧ w.host.Asked Action.IsLookup l.state ∧
      config.prober.isAvailable port told.protocol (config.addressFor told.protocol) l =
        (.ok free, l') ∧ w'.host = l'.state
  /-- A port that was given is told to be held if a keeper of it was given, which is held and
  dropped after that. -/
  held : ∀ port ∈ g.port, ∀ seconds ∈ g.keep, told.port = port ∧ told.free = none ∧
    ∃ keeper l l', ∃ m : World Host, w.host.Asked Action.IsLookup l.state ∧
      config.prober.keep port told.protocol (config.addressFor told.protocol) l =
        (.ok (some keeper), l') ∧ m.host = l'.state ∧ w' = Hold.finish ⟨keeper, seconds⟩ m
  /-- A port that was not given lies in the range that was, or else in one of the configuration. -/
  inRange : g.port = none → told.free = none ∧ (g.rangeUnder config).lower ≤ told.port ∧
    told.port ≤ (g.rangeUnder config).upper
  /-- The last question of the search is about that port and finds it free: a check, or a claim that
  is held after that. -/
  last : g.port = none → ∃ h, ∃ m : World Host, w.host.Asked Action.IsLookup h ∧
    ((w' = m ∧ config.prober.Concludes (g.rangeUnder config) told.protocol
        (config.addressFor told.protocol)
        (config.prober.isAvailable told.port told.protocol (config.addressFor told.protocol)) true
        h m.host) ∨
      ∃ hold : Hold, w' = hold.finish m ∧ hold.keeper.port = told.port ∧
        config.prober.Concludes (g.rangeUnder config) told.protocol
          (config.addressFor told.protocol)
          (config.prober.keep told.port told.protocol (config.addressFor told.protocol))
          (some hold.keeper) h m.host)

/-- What a report comes from is told by what was given. -/
theorem Given.backs_of_settles {g : Given} {c : Command} (hcommand : g.command = .ok c)
    {config : Config} {report : Report} {hold : Option Hold} {h : Host} {w m : World Host}
    (hbefore : w.host.Asked Action.IsLookup h) (hsettles : c.Settles config report hold h m.host) :
    g.Backs config report.told w (Command.finish hold m) := by
  obtain ⟨htask, -, hprotocol⟩ := Given.of_command hcommand
  have hbounds {range : PortRange} {port : UInt16} (hin : range.contains port = true) :
      range.lower ≤ port ∧ port ≤ range.upper := by
    simpa [PortRange.contains] using hin
  unfold Command.Settles at hsettles
  rw [htask, Given.task] at hsettles
  rcases hport : g.port with _ | port
  · rcases hrange : g.range with _ | range
    · have hunder : g.rangeUnder config = config.rangeFor g.membership := by
        rw [rangeUnder, hrange]
        rfl
      rcases hkeep : g.keep with _ | seconds <;> rw [hport, hrange, hkeep] at hsettles
      · obtain ⟨rfl, hreport, hin, hends⟩ := hsettles
        rw [← hunder] at hin hends
        rw [hreport]
        exact ⟨hprotocol, by simp [hport], by simp [hport], fun _ => ⟨rfl, hbounds hin⟩,
          fun _ => ⟨h, m, hbefore, .inl ⟨rfl, hends⟩⟩⟩
      · obtain ⟨keeper, rfl, rfl, hin, hends⟩ := hsettles
        rw [← hunder] at hin hends
        exact ⟨hprotocol, by simp [hport], by simp [hport], fun _ => ⟨rfl, hbounds hin⟩,
          fun _ => ⟨h, m, hbefore, .inr ⟨⟨keeper, seconds⟩, rfl, rfl, hends⟩⟩⟩
    · have hunder : g.rangeUnder config = range := by
        rw [rangeUnder, hrange]
        rfl
      rw [hport, hrange] at hsettles
      obtain ⟨rfl, hreport, hin, hends⟩ := hsettles
      rw [← hunder] at hin hends
      rw [hreport]
      exact ⟨hprotocol, by simp [hport], by simp [hport], fun _ => ⟨rfl, hbounds hin⟩,
        fun _ => ⟨h, m, hbefore, .inl ⟨rfl, hends⟩⟩⟩
  · rcases hkeep : g.keep with _ | seconds <;> rw [hport, hkeep] at hsettles
    · obtain ⟨rfl, free, l, l', rfl, rfl, hask, hstate⟩ := hsettles
      refine ⟨hprotocol, ?_, by simp [hkeep], by simp [hport], by simp [hport]⟩
      rintro _ hgiven -
      obtain rfl := Option.some.inj (hport.symm.trans hgiven)
      exact ⟨rfl, free, l, l', rfl, hbefore, hask, hstate.symm⟩
    · obtain ⟨keeper, l, l', rfl, rfl, rfl, hask, hstate⟩ := hsettles
      refine ⟨hprotocol, by simp [hkeep], ?_, by simp [hport], by simp [hport]⟩
      rintro _ hgiven _ hheld
      obtain rfl := Option.some.inj (hport.symm.trans hgiven)
      obtain rfl := Option.some.inj (hkeep.symm.trans hheld)
      exact ⟨rfl, rfl, keeper, l, l', m, hbefore, hask, hstate.symm, rfl⟩

/-- How a command is carried out that was made of what was given. -/
structure Command.CarriedOut (c : Command) (g : Given) (s : Surroundings) (w : World Host)
    (outcome : Outcome) (w' : World Host) : Prop where
  /-- The command is about what was given. -/
  given : g.protocol = some c.protocol ∧ c.address = g.address ∧ c.configPath = g.configPath
  /-- The program succeeds exactly if what it has written is a report. -/
  success_iff : outcome.exitCode = 0 ↔ ∃ told, Told.ofOutput? outcome.output g.style = some told
  /-- Otherwise it fails, and has written nothing. -/
  failure : outcome.exitCode ≠ 0 → outcome.exitCode = 1 ∧ outcome.output = ""
  /-- It fails without having asked for anything but names if the layers give no configuration.
  Otherwise it asks for ports on the address of that, and what it reports is backed by what it was
  answered. -/
  course : (outcome.exitCode = 1 ∧ w.host.Asked Action.IsLookup w'.host ∧
      ∀ config, ¬c.Configured s w.host.answer config) ∨
    ∃ config, c.Configured s w.host.answer config ∧
      w.host.Asked (c.MayAsk config w.host.interfaces) w'.host ∧
      ∀ told, Told.ofOutput? outcome.output g.style = some told → g.Backs config told w w'

/-- Nothing is no report. -/
theorem Told.ofOutput?_empty (style : Style) : ofOutput? "" style = none := by
  cases style <;> decide

/-- Whatever arguments are accepted, and whatever the file, the environment, the host and the random
words are: a run that ends has either succeeded with a report on standard output, or failed without
one. Its checks are made on the address that the command, the environment or the file gives, in this
order, and its report tells how the last of them was answered. -/
theorem Command.carried_out {texts : List String} {g : Given} {c : Command}
    (hgiven : Given.ofTexts texts = .ok g) (hread : Command.read texts = .ok c) {fuel : Nat}
    {s : Surroundings} {w w' : World Host} {outcome : Outcome}
    (hrun : CommandLine.execute texts fuel s w = (some outcome, w')) :
    c.CarriedOut g s w outcome w' := by
  have hcommand : g.command = .ok c := by
    rw [Command.read_eq, hgiven] at hread
    exact hread
  obtain ⟨-, hprotocol, hc⟩ := Given.command_eq_ok_iff.mp hcommand
  have hmade : g.protocol = some c.protocol ∧ c.address = g.address ∧
      c.configPath = g.configPath :=
    ⟨hprotocol, congrArg Command.address hc, congrArg Command.configPath hc⟩
  have hstyle : c.style = g.style := congrArg Command.style hc
  simp only [CommandLine.execute, hread, Command.execute] at hrun
  rcases hending : c.run fuel s w with ⟨ending, m⟩
  rw [hending] at hrun
  obtain ⟨houtcome, rfl⟩ := Prod.mk.inj hrun
  obtain ⟨hnot, hcourse⟩ := c.run_course hending
  unfold Command.outcome at houtcome
  rcases ending with setback | report
  · obtain ⟨hcode, houtput⟩ : outcome.exitCode = 1 ∧ outcome.output = "" := by
      cases setback with
      | aborted => exact absurd rfl hnot
      | unfinished => cases houtcome
      | _ =>
        cases houtcome
        exact ⟨rfl, rfl⟩
    have hsilent : Told.ofOutput? outcome.output g.style = none := by
      rw [houtput, Told.ofOutput?_empty]
    refine ⟨hmade, ?_, fun _ => ⟨hcode, houtput⟩, ?_⟩
    · simp [hcode, hsilent]
    · rcases hcourse with ⟨_, -, hasked, hnone⟩ | ⟨config, hunder⟩
      · exact .inl ⟨hcode, hasked, hnone⟩
      · refine .inr ⟨config, hunder.configured, hunder.asked, fun told htold => ?_⟩
        rw [hsilent] at htold
        cases htold
  · cases houtcome
    have hback : Told.ofOutput? (report.render c.style) g.style = some report.told := by
      rw [hstyle]
      exact report.ofOutput?_render g.style
    refine ⟨hmade, ⟨fun _ => ⟨_, hback⟩, fun _ => rfl⟩, fun hnot => absurd rfl hnot, .inr ?_⟩
    rcases hcourse with ⟨_, hsetback, -⟩ | ⟨config, hunder⟩
    · cases hsetback
    · refine ⟨config, hunder.configured, hunder.asked, fun told htold => ?_⟩
      obtain rfl := Option.some.inj (hback.symm.trans htold)
      obtain ⟨h, hold, v, hbefore, hsettles, rfl⟩ := hunder.settles report rfl
      exact Given.backs_of_settles hcommand hbefore hsettles

/-- The text of a file with an address and both ranges. -/
def portsFile : String :=
  "bindAddress: 127.0.0.1\nrange:\n  start: 25000\n  end: 26000\n" ++
    "membershipRange:\n  start: 41000\n  end: 41000\n"

/-- The configuration that the file says. -/
def portsConfig : Config where
  range := ⟨25000, 26000⟩
  membershipRange := ⟨41000, 41000⟩
  bindAddress := some (.v4 .loopback)

/-- Surroundings with the file, where the environment leaves one port of its general range. -/
def withPortsFile : Surroundings where
  environment key := if key = "AVAILABLE_PORT_UPPER_BOUND" then some "25000" else none
  contentOf path := if path = "ports.yaml" then .ok portsFile.toUTF8 else .error .noSuchFile

/-- A host with its loopback addresses, where another program listens on port 25001 of
`127.0.0.1`. -/
def besidePort : World Host :=
  { Session.onLoopback.world with
    state := { Session.onLoopback.world.state with
      foreign := [⟨⟨.v4 .loopback, 0⟩, 25001⟩] } }

/-- A command that names the file starts from what it says. -/
theorem Command.fileConfig_ports {c : Command} (hpath : c.configPath = some "ports.yaml") :
    c.fileConfig withPortsFile besidePort = (.ok portsConfig, besidePort) := by
  have hcontent : withPortsFile.contentOf "ports.yaml" = .ok portsFile.toUTF8 := by
    simp only [withPortsFile, if_true]
  have hsaid : Config.SaidIn portsFile portsConfig :=
    Config.ofDocument?_eq_some_iff.mp (by decide +kernel)
  have hcheck : portsConfig.check = .ok portsConfig := by decide +kernel
  have hvalid := (Config.check_eq_ok_iff.mp hcheck).2
  exact (c.fileConfig_eq_ok_iff _).mpr ⟨.file hpath hcontent hsaid hvalid, rfl⟩

/-- The one port that the environment leaves of the general range of the file is picked on the
address of that, and so is the one of its membership range, and one of a range that is given. Port
25001 is in use on that address, so that it cannot be held, and it is free on one that is given. -/
theorem Command.carried_out_with_file :
    let Ends (texts : List String) (exitCode : Nat) (output : String) : Prop :=
      ∃ (c : Command) (g : Given) (outcome : Outcome) (w' : World Host),
        CommandLine.execute texts 1 withPortsFile besidePort = (some outcome, w') ∧
        outcome.exitCode = exitCode ∧ outcome.output = output ∧
        c.CarriedOut g withPortsFile besidePort outcome w'
    Ends ["stream", "--config", "ports.yaml"] 0 "\nRandomly selected socket port: 25000\n\n" ∧
      Ends ["stream", "--membership", "--config", "ports.yaml", "--json"] 0
        "\x7b\"port\":41000,\"protocol\":\"socket\"\x7d\n" ∧
      Ends ["stream", "--range", "25002-25003", "--config", "ports.yaml"] 0
        "\nRandomly selected socket port: 25002\n\n" ∧
      Ends ["stream", "25001", "--config", "ports.yaml", "--json"] 0
        "\x7b\"available\":false,\"port\":25001,\"protocol\":\"socket\"\x7d\n" ∧
      Ends ["stream", "25001", "--config", "ports.yaml", "--keep", "1"] 1 "" ∧
      Ends ["stream", "25001", "--config", "ports.yaml", "--addr", "::1"] 0
        "\nPort 25001 is available for a socket connection\n\n" := by
  intro Ends
  have hends (outcome : Outcome) {texts : List String} {g : Given} {c : Command}
      (hgiven : Given.ofTexts texts = .ok g) (hcommand : g.command = .ok c)
      (hexecute : (c.execute 1 withPortsFile besidePort).1 = some outcome) :
      Ends texts outcome.exitCode outcome.output := by
    have hread : Command.read texts = .ok c := by
      rw [Command.read_eq, hgiven]
      exact hcommand
    rcases hrun : CommandLine.execute texts 1 withPortsFile besidePort with ⟨result, w'⟩
    have hsame : result = some outcome := by
      rw [← hexecute]
      simp only [CommandLine.execute, hread] at hrun
      rw [hrun]
    subst hsame
    exact ⟨c, g, outcome, w', hrun, rfl, rfl, Command.carried_out hgiven hread hrun⟩
  have hpick : Given.ofTexts ["stream", "--config", "ports.yaml"] = .ok
      { protocol := some .stream, configPath := some "ports.yaml"
        arguments := [.protocol, .config] } := by
    decide +kernel
  have hmembership : Given.ofTexts ["stream", "--membership", "--config", "ports.yaml", "--json"] =
      .ok { protocol := some .stream, membership := true, configPath := some "ports.yaml"
            json := true, arguments := [.protocol, .membership, .config, .json] } := by
    decide +kernel
  have hrange : Given.ofTexts ["stream", "--range", "25002-25003", "--config", "ports.yaml"] = .ok
      { protocol := some .stream, range := some ⟨25002, 25003⟩, configPath := some "ports.yaml"
        arguments := [.protocol, .range, .config] } := by
    decide +kernel
  have hbusy : Given.ofTexts ["stream", "25001", "--config", "ports.yaml", "--json"] = .ok
      { protocol := some .stream, port := some 25001, configPath := some "ports.yaml"
        json := true, arguments := [.protocol, .port, .config, .json] } := by
    decide +kernel
  have hkeep : Given.ofTexts ["stream", "25001", "--config", "ports.yaml", "--keep", "1"] = .ok
      { protocol := some .stream, port := some 25001, configPath := some "ports.yaml"
        keep := some 1, arguments := [.protocol, .port, .config, .keep] } := by
    decide +kernel
  have hfree : Given.ofTexts ["stream", "25001", "--config", "ports.yaml", "--addr", "::1"] = .ok
      { protocol := some .stream, port := some 25001, configPath := some "ports.yaml"
        address := some "::1", arguments := [.protocol, .port, .config, .address] } := by
    decide +kernel
  let refusal : Outcome := {
    exitCode := 1
    complaint := some "Port 25001 is not available for a socket connection" }
  let report (output : String) : Outcome := { exitCode := 0, output }
  refine ⟨hends (report _) hpick rfl ?_, hends (report _) hmembership rfl ?_,
    hends (report _) hrange rfl ?_, hends (report _) hbusy rfl ?_, hends refusal hkeep rfl ?_,
    hends (report _) hfree rfl ?_⟩ <;>
    -- the file is read once, and what is done with its configuration is then evaluated
    simp only [Command.execute, Command.run, Command.settle, Command.config, chain_apply,
      Command.fileConfig_ports] <;>
    decide +kernel

end CommandLine

end PortWarden
