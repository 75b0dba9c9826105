import PortWarden.Proofs.Files
import PortWarden.Proofs.Outcome

/-!
# The configuration of a run

A command is carried out under a configuration in layers: what the file says that it names, or else
the defaults, is overridden by the environment, and the address by the command. It is found out
exactly if there is one, and asks the host for nothing but names.
-/

namespace PortWarden

/-- Where only names were asked for, they are answered as before. -/
theorem Host.LooksUp.answer_eq {h h' : Host} (hlooks : h.LooksUp h') : h'.answer = h.answer := by
  obtain ⟨calls, -, rfl⟩ := hlooks
  rfl

namespace CommandLine.Command

variable (c : Command) (s : Surroundings)

/-! ## Layers -/

/-- The configuration that a command starts from. -/
inductive StartsFrom : Config → Prop where
  /-- It names no file, and starts from the defaults. -/
  | defaults (hpath : c.configPath = none) : StartsFrom Config.standard
  /-- It starts from what the text of the file says that it names. -/
  | file {path text : String} {base : Config} (hpath : c.configPath = some path)
      (hcontent : s.contentOf path = .ok text.toUTF8) (hsaid : Config.SaidIn text base)
      (hvalid : base.Valid) : StartsFrom base

/-- What the address of a command makes of a configuration, where `ask` answers for names. -/
inductive Overrides (ask : String → Lookup) (before : Config) : Config → Prop where
  /-- It gives none, and changes nothing. -/
  | nothing (haddress : c.address = none) : Overrides ask before before
  /-- It gives one for stream ports. -/
  | stream {text : String} {a : Address} (hprotocol : c.protocol = .stream)
      (haddress : c.address = some text) (ha : ResolvesTo ask text (.ok a)) :
      Overrides ask before { before with bindAddress := some a }
  /-- It gives a multicast group. -/
  | multicast {text : String} {a : Address} (hprotocol : c.protocol = .multicast)
      (haddress : c.address = some text) (ha : ResolvesTo ask text (.ok a)) :
      Overrides ask before { before with group := some a }

/-- The configuration under which a command is carried out that starts from another one. -/
structure Governs (ask : String → Lookup) (env : Environment) (base config : Config) : Prop where
  /-- Every value in the environment can be read. -/
  readable : Variable.NoneOffends ask env Variable.kinds
  /-- The environment lies over the base, and the address of the command over that. -/
  layers : ∃ d, Config.Combined ask env base d ∧ d.Valid ∧ c.Overrides ask d config
  /-- The configuration is valid. -/
  valid : config.Valid

/-- The configuration under which a command is carried out in its surroundings. -/
def Configured (ask : String → Lookup) (config : Config) : Prop :=
  ∃ base, c.StartsFrom s base ∧ c.Governs ask s.environment base config

variable {c s}

/-- A command is carried out under a valid configuration. -/
theorem Configured.valid {ask : String → Lookup} {config : Config}
    (hconfigured : c.Configured s ask config) : config.Valid := by
  obtain ⟨_, -, hgoverns⟩ := hconfigured
  exact hgoverns.valid

variable (c s)

/-! ## What is found out -/

/-- The configuration of the file is found out exactly if a command starts from it. -/
theorem fileConfig_eq_ok_iff {w w' : World Host} {base : Config} :
    c.fileConfig s w = (.ok base, w') ↔ c.StartsFrom s base ∧ w' = w := by
  unfold fileConfig
  constructor
  · intro hrun
    cases hpath : c.configPath with
    | none =>
      rw [hpath] at hrun
      cases hrun
      exact ⟨.defaults hpath, rfl⟩
    | some path =>
      rw [hpath] at hrun
      obtain ⟨hload, rfl⟩ := Running.ofExcept_ok hrun
      obtain ⟨text, hcontent, hsaid, hvalid⟩ := Config.load_eq_ok_iff.mp hload
      exact ⟨.file hpath hcontent hsaid hvalid, rfl⟩
  · rintro ⟨hpath | ⟨hpath, hcontent, hsaid, hvalid⟩, rfl⟩ <;> rw [hpath]
    · rfl
    · have hload := Config.load_eq_ok_iff.mpr ⟨_, hcontent, hsaid, hvalid⟩
      simp only [hload]
      rfl

/-- Over a valid configuration the address of a command is laid exactly if the configuration that
results is valid. -/
theorem withAddress_eq_ok_iff {w : World Host} {before config : Config} (hvalid : before.Valid) :
    (c.withAddress before w).1 = .ok config ↔
      c.Overrides w.host.answer before config ∧ config.Valid := by
  unfold withAddress
  cases haddress : c.address with
  | none =>
    have hnone (d : Config) : c.Overrides w.host.answer before d ↔ d = before := by
      constructor
      · rintro (- | ⟨-, htext, -⟩ | ⟨-, htext, -⟩)
        · rfl
        · rw [haddress] at htext
          cases htext
        · rw [haddress] at htext
          cases htext
      · rintro rfl
        exact .nothing haddress
    rw [hnone]
    constructor
    · rintro ⟨⟩
      exact ⟨rfl, hvalid⟩
    · rintro ⟨rfl, -⟩
      rfl
  | some text =>
    -- the address is resolved on the host, and the configuration with it is judged
    have hresolve (a : Address) : ((Variable.readAddress text) w.toLogged).1 = .ok a ↔
        ResolvesTo w.host.answer text (.ok a) := Host.resolve_fst_eq_iff
    have hsome (d : Config) : c.Overrides w.host.answer before d ↔
        ∃ a, ResolvesTo w.host.answer text (.ok a) ∧ d = before.withAddressFor c.protocol a := by
      constructor
      · rintro (hnone | ⟨hprotocol, htext, ha⟩ | ⟨hprotocol, htext, ha⟩)
        · rw [haddress] at hnone
          cases hnone
        · obtain rfl := Option.some.inj (haddress.symm.trans htext)
          exact ⟨_, ha, by rw [hprotocol]; rfl⟩
        · obtain rfl := Option.some.inj (haddress.symm.trans htext)
          exact ⟨_, ha, by rw [hprotocol]; rfl⟩
      · rintro ⟨a, ha, rfl⟩
        cases hprotocol : c.protocol with
        | stream => exact .stream hprotocol haddress ha
        | multicast => exact .multicast hprotocol haddress ha
    simp only [hsome, ← hresolve]
    constructor
    · intro hrun
      obtain ⟨a, m, hread, hjudge⟩ := chain_ok (Prod.ext_iff.mpr ⟨hrun, rfl⟩)
      obtain ⟨hread, -⟩ := Running.configuring_ok hread
      obtain ⟨hcheck, -⟩ := Running.ofExcept_ok hjudge
      obtain ⟨rfl, hvalid⟩ := Config.check_eq_ok_iff.mp hcheck
      exact ⟨⟨a, hread, rfl⟩, hvalid⟩
    · rintro ⟨⟨a, hread, rfl⟩, hvalid⟩
      have hcheck := Config.check_eq_ok_iff.mpr ⟨rfl, hvalid⟩
      simp only [chain_apply, Running.configuring_of_ok hread, hcheck]
      rfl

/-- A configuration is found out exactly if it is the one under which the command is carried out. -/
theorem config_eq_ok_iff {w : World Host} {config : Config} :
    (c.config s w).1 = .ok config ↔ c.Configured s w.host.answer config := by
  have hsame (base : Config) (context : Option Context) :
      (Running.configuring context (base.overlay s.environment) w).2.host.answer =
        w.host.answer :=
    (Running.configuring_looksUp context (base.overlay_looksUp _) w).answer_eq
  constructor
  · intro hrun
    obtain ⟨base, w₁, hfile, hrest⟩ := chain_ok (Prod.ext_iff.mpr ⟨hrun, rfl⟩)
    obtain ⟨hstarts, rfl⟩ := (c.fileConfig_eq_ok_iff s).mp hfile
    obtain ⟨d, w₂, hoverlay, hlast⟩ := chain_ok hrest
    obtain ⟨hover, -⟩ := Running.configuring_ok hoverlay
    obtain ⟨hreadable, hcombined, hd⟩ := Config.overlay_eq_ok_iff.mp hover
    have hanswer := hsame base (some .environment)
    rw [hoverlay] at hanswer
    obtain ⟨hoverrides, hvalid⟩ := (c.withAddress_eq_ok_iff hd).mp (by rw [hlast])
    rw [hanswer] at hoverrides
    exact ⟨base, hstarts, hreadable, ⟨d, hcombined, hd, hoverrides⟩, hvalid⟩
  · rintro ⟨base, hstarts, hreadable, ⟨d, hcombined, hd, hoverrides⟩, hvalid⟩
    have hfile : c.fileConfig s w = (.ok base, w) :=
      (c.fileConfig_eq_ok_iff s).mpr ⟨hstarts, rfl⟩
    have hover : (base.overlay s.environment w.toLogged).1 = .ok d :=
      Config.overlay_eq_ok_iff.mpr ⟨hreadable, hcombined, hd⟩
    have hoverlay : Running.configuring (some .environment) (base.overlay s.environment) w =
        (.ok d, { w with toLogged := (base.overlay s.environment w.toLogged).2 }) :=
      Running.configuring_of_ok hover
    have hanswer := hsame base (some .environment)
    rw [hoverlay] at hanswer
    rw [← hanswer] at hoverrides
    have hlast := (c.withAddress_eq_ok_iff hd).mpr ⟨hoverrides, hvalid⟩
    simp only [Command.config, chain_apply, hfile, hoverlay, hlast]

/-- Finding out the configuration only looks names up. -/
theorem config_looksUp : OnlyLooksUp World.host (c.config s) := by
  have hknown {α : Type} (context : Option Context) (known : Except Failure α) :
      OnlyLooksUp World.host (Running.ofExcept context known) := by
    cases known with
    | error failure => exact .throw _
    | ok a => exact .pure a
  have hfile : OnlyLooksUp World.host (c.fileConfig s) := by
    unfold fileConfig
    cases c.configPath with
    | none => exact .pure _
    | some path => exact hknown _ _
  refine hfile.chain fun base => ?_
  refine (Running.configuring_looksUp _ (base.overlay_looksUp _)).chain fun config => ?_
  unfold withAddress
  cases c.address with
  | none => exact .pure config
  | some text =>
    exact (Running.configuring_looksUp _ (Variable.readAddress_looksUp text)).chain
      fun address => hknown _ _

end CommandLine.Command

end PortWarden
