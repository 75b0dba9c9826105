import PortWarden.Proofs.Styling
import PortWarden.Proofs.Telling

/-!
# Presentation

How a run is told changes nothing but that. Two command lines that differ only in what says how
their runs are told have runs that ask the host for the same in the same order, draw the same words
and end alike; they report the same of the same port, each in its style, and where more is to be
reported of the work there are more lines of it.
-/

namespace PortWarden.CommandLine

/-- Two commands tell alike of what came about. -/
structure Command.TellAlike (c c' : Command) (o o' : Outcome) : Prop where
  /-- The exit codes are the same. -/
  exitCode : o'.exitCode = o.exitCode
  /-- The reasons for there being no report are the same. -/
  complaint : o'.complaint = o.complaint
  /-- What succeeds tells the same of the same port in either style, of the protocol asked for, and
  of a port that was to be checked whether it is free. -/
  success : o.exitCode = successCode → ∃ told : Told,
    Told.ofOutput? o.output c.style = some told ∧ Told.ofOutput? o'.output c'.style = some told ∧
      told.protocol = c.protocol ∧
      ∀ port, c.task = .check port → told.port = port ∧ told.free.isSome = true
  /-- What does not succeed writes nothing. -/
  failure : o.exitCode ≠ successCode → o.output = "" ∧ o'.output = ""
  /-- The more is to be reported of the work, the more lines there are of it. -/
  log : c.verbosity ≤ c'.verbosity → o.log.Sublist o'.log

/-- Two runs differ only in how they are told. -/
structure Command.RunAlike (c c' : Command) (run run' : Option Outcome × World Host) : Prop where
  /-- The host has been asked for the same in the same order, to sleep and to close sockets
  included; the same words have been drawn, and the same events have been reported. -/
  world : run'.2 = run.2
  /-- Either has ended if the other has, and then they tell alike. -/
  outcome : Option.Rel (c.TellAlike c') run.1 run'.1

namespace Command

variable (c : Command)

/-- A run goes on alike however it is told. -/
theorem run_styled (s : Styling) (fuel : Nat) (surroundings : Surroundings) :
    (c.styled s).run fuel surroundings = c.run fuel surroundings :=
  rfl

/-- The level from which on events are shown falls with each request for more. -/
theorem rank_threshold : c.threshold.rank = 2 - c.verbosity := by
  unfold threshold
  rcases c.verbosity with _ | _ | n
  · rfl
  · rfl
  · simp only [Level.rank]
    omega

/-- Where more is to be reported of the work, all that is shown otherwise is shown. -/
theorem shows_of_shows {c c' : Command} (hle : c.verbosity ≤ c'.verbosity) {event : Event}
    (hshows : c.shows event = true) : c'.shows event = true := by
  simp only [shows, rank_threshold, decide_eq_true_eq] at hshows ⊢
  omega

/-- A report is about the protocol that is asked for, and about the port that is to be checked and
whether it is free. -/
theorem report_of_run {fuel : Nat} {s : Surroundings} {w w' : World Host} {report : Report}
    (hrun : c.run fuel s w = (.ok report, w')) : report.protocol = c.protocol ∧
      ∀ port, c.task = .check port → report.port = port ∧ report.told.free.isSome = true := by
  obtain ⟨-, ⟨_, hfailed, -⟩ | ⟨config, hunder⟩⟩ := c.run_course hrun
  · cases hfailed
  · obtain ⟨h, hold, m, -, hsettles, -⟩ := hunder.settles report rfl
    unfold Settles at hsettles
    cases htask : c.task with
    | check port =>
      rw [htask] at hsettles
      obtain ⟨-, free, l, l', rfl, -⟩ := hsettles
      refine ⟨rfl, fun port' hport => ?_⟩
      cases hport
      exact ⟨rfl, rfl⟩
    | hold port seconds =>
      rw [htask] at hsettles
      obtain ⟨keeper, l, l', rfl, -⟩ := hsettles
      exact ⟨rfl, fun _ hcheck => by cases hcheck⟩
    | holdRandom membership seconds =>
      rw [htask] at hsettles
      obtain ⟨keeper, rfl, -⟩ := hsettles
      exact ⟨rfl, fun _ hcheck => by cases hcheck⟩
    | pickInRange range | pick membership =>
      rw [htask] at hsettles
      obtain ⟨-, hpicked, -⟩ := hsettles
      exact ⟨congrArg Report.protocol hpicked, fun _ hcheck => by cases hcheck⟩

/-- The same events and the same end are told alike in any way. -/
theorem outcome_styled (s : Styling) (events : List Event) (ending : Except Setback Report)
    (hreport : ∀ report, ending = .ok report → report.protocol = c.protocol ∧
      ∀ port, c.task = .check port → report.port = port ∧ report.told.free.isSome = true) :
    Option.Rel (c.TellAlike (c.styled s)) (c.outcome events ending)
      ((c.styled s).outcome events ending) := by
  have hlog (hle : c.verbosity ≤ (c.styled s).verbosity) :
      ((events.filter c.shows).map Event.line).Sublist
        ((events.filter (c.styled s).shows).map Event.line) :=
    (List.monotone_filter_right events fun _ => shows_of_shows hle).map Event.line
  rcases ending with setback | report
  · cases setback with
    | unfinished => exact .none
    | _ =>
      refine .some ⟨rfl, rfl, fun hsuccess => ?_, fun _ => ⟨rfl, rfl⟩, hlog⟩
      cases hsuccess
  · obtain ⟨hprotocol, hcheck⟩ := hreport report rfl
    refine .some ⟨rfl, rfl, fun _ => ?_, fun hnot => absurd rfl hnot, hlog⟩
    exact ⟨report.told, report.ofOutput?_render c.style, report.ofOutput?_render s.style,
      hprotocol, hcheck⟩

/-- A command is carried out alike however the run is told. -/
theorem execute_styled (s : Styling) (fuel : Nat) (surroundings : Surroundings) (w : World Host) :
    c.RunAlike (c.styled s) (c.execute fuel surroundings w)
      ((c.styled s).execute fuel surroundings w) := by
  rcases hrun : c.run fuel surroundings w with ⟨ending, w'⟩
  have hrun' : (c.styled s).run fuel surroundings w = (ending, w') := by
    rw [run_styled, hrun]
  simp only [execute, hrun, hrun']
  refine ⟨rfl, c.outcome_styled s w'.events ending ?_⟩
  rintro report rfl
  exact c.report_of_run hrun

end Command

/-- What a command line says of how its run is told matters to nothing else. -/
structure OnlyTells (texts : List String) (c : Command) : Prop where
  /-- Without it, and with any request for a style and for more to be reported before the rest, the
  command line is accepted and asks for the same. -/
  accepted : ∀ s : Styling, Command.read (s.texts ++ withoutStyling texts) = .ok (c.styled s)
  /-- Its run then differs only in how it is told. -/
  styled : ∀ (s : Styling) fuel surroundings w, c.RunAlike (c.styled s)
    (execute texts fuel surroundings w)
    (execute (s.texts ++ withoutStyling texts) fuel surroundings w)
  /-- Every command line that is accepted and says the same apart from it has a run that differs
  only in how it is told. -/
  alike : ∀ texts' c', Command.read texts' = .ok c' →
    withoutStyling texts' = withoutStyling texts →
      ∀ fuel s w, c.RunAlike c' (execute texts fuel s w) (execute texts' fuel s w)

/-- Whatever command line is accepted, and whatever the file, the environment, the host and the
random words are: what it says of how its run is told changes nothing but that. -/
theorem presentation_only {texts : List String} {c : Command}
    (hread : Command.read texts = .ok c) : OnlyTells texts c := by
  refine ⟨Command.read_styled hread, fun s fuel surroundings w => ?_,
    fun texts' c' hread' hsame fuel s w => ?_⟩
  · simp only [execute, hread, Command.read_styled hread s]
    exact c.execute_styled s fuel surroundings w
  · have hstyled := Command.eq_styled_of_read hread hread' hsame
    simp only [execute, hread, hread']
    rw [hstyled]
    exact c.execute_styled _ fuel s w

/-- The command line that checks port 20001 on `127.0.0.1` ends in a sentence. With requests for
JSON and for more to be reported it ends in an object, after three lines of the work, and has asked
the host for the same. -/
theorem presentation_only_on_loopback :
    let texts := ["stream", "20001", "--addr", "127.0.0.1"]
    let texts' := ["stream", "--json", "20001", "-vv", "--addr", "127.0.0.1"]
    let c : Command := { protocol := .stream, task := .check 20001, address := some "127.0.0.1" }
    let run := execute texts 0 {} Session.onLoopback.world
    let run' := execute texts' 0 {} Session.onLoopback.world
    Command.read texts = .ok c ∧ OnlyTells texts c ∧
      (run.1.map fun o => (o.output, o.log.length)) =
        some ("\nPort 20001 is available for a socket connection\n\n", 0) ∧
      (run'.1.map fun o => (o.output, o.log.length)) =
        some ("\x7b\"available\":true,\"port\":20001,\"protocol\":\"socket\"\x7d\n", 3) ∧
      run'.2 = run.2 := by
  intro texts texts' c run run'
  have hread : Command.read texts = .ok c := by decide +kernel
  have hread' : Command.read texts' = .ok (c.styled ⟨.json, 2⟩) := by decide +kernel
  have honly : OnlyTells texts c := presentation_only hread
  have halike := honly.alike texts' _ hread' (by decide +kernel) 0 {} Session.onLoopback.world
  exact ⟨hread, honly, by decide +kernel, by decide +kernel, halike.world⟩

end PortWarden.CommandLine
