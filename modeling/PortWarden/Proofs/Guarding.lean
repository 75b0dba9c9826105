import PortWarden.Proofs.Drawing
import PortWarden.Proofs.Validity
import PortWarden.Session

/-!
# What the check of a configuration guards

The operations that are not defined everywhere stand far from the check of the configuration: the
choice of a port, which needs a range whose bounds are in order, and the arithmetic of the search in
a given range. In a service with a valid configuration they are never reached with anything else,
whatever is asked of it. A service that probes as its configuration says has a group to ask in, so
that it blames its caller for no question that names none.
-/

namespace PortWarden

/-- A question on the whole state fails as it fails on the host. -/
theorem Probing.onWorld_fails {α : Type} {question : Probing Host α} {holds : Stop → Prop}
    (hquestion : Fails question fun failure => holds (.failure failure)) :
    Fails question.onWorld holds := by
  intro w stop w' hrun
  simp only [onWorld] at hrun
  rcases hask : question w.toLogged with ⟨failure | a, l⟩ <;> rw [hask] at hrun <;> cases hrun
  exact hquestion _ _ _ hask

/-- A session reports no stop that its service does not come to. -/
theorem Session.ask_ne_stopped {α : Type} {s : Session} {question : Allocating Host α}
    {reply : α → Session → Reply × Session} {stop : Stop}
    (hquestion : Fails question (· ≠ stop)) (hreply : ∀ a t, (reply a t).1 ≠ .stopped stop) :
    (s.ask question reply).1 ≠ .stopped stop := by
  simp only [ask]
  rcases hrun : question s.world with ⟨other | a, world⟩
  · rintro ⟨rfl⟩
    exact hquestion _ _ _ hrun rfl
  · exact hreply a _

namespace Service

variable (s : Service)

/-- The range from which a request draws ports, if it draws any. -/
def drawsFrom : Request → Option PortRange
  | .random _ _ membership | .keepRandom _ _ _ membership => some (s.config.rangeFor membership)
  | .randomByDefault _ => some s.config.range
  | .randomInRange lower upper _ => some ⟨lower, upper⟩
  | _ => none

/-- How many ports a request may draw, if their number is limited. -/
def drawsAtMost : Request → Option Nat
  | .random .. | .keepRandom .. | .randomByDefault _ => s.config.attemptLimit.map (·.toNat)
  | .randomInRange lower upper _ => some (Allocator.budget ⟨lower, upper⟩)
  | _ => some 0

/-- The ports that a request draws, in order. -/
def candidates (fuel : Nat) (w : World Host) : Request → List UInt16
  | .random protocol address membership =>
    s.allocator.drawnForPort fuel membership protocol address w
  | .keepRandom _ protocol address membership =>
    s.allocator.drawnForKeeper fuel membership protocol address w
  | .randomByDefault protocol =>
    s.allocator.drawnForPort fuel false protocol (s.config.addressFor protocol) w
  | .randomInRange lower upper protocol =>
    s.allocator.drawnInRange fuel ⟨lower, upper⟩ protocol (s.config.addressFor protocol) w
  | _ => []

/-- What a service keeps to, whatever is asked of it in whatever state. -/
structure Guarded : Prop where
  /-- No port is to be drawn from a range whose bounds are inverted. -/
  ordered : ∀ keepers listeners world fuel request,
    (Session.step fuel request ⟨s, keepers, listeners, world⟩).1 ≠ .stopped .emptyRange
  /-- A port that is drawn lies in the range from which it should be, and is not port 0. -/
  inRange : ∀ fuel world request, ∀ port ∈ s.candidates fuel world request,
    port ≠ 0 ∧ ∃ range ∈ s.drawsFrom request, range.Usable ∧ range.contains port = true
  /-- If the number of ports is limited, no more are drawn. -/
  limited : ∀ fuel world request, ∀ most ∈ s.drawsAtMost request,
    (s.candidates fuel world request).length ≤ most
  /-- A search counts its attempts up to the limit only: a port is found at no higher count, and
  what would be done about a missed port at a higher count makes no difference. -/
  counted : ∀ limit, s.config.attemptLimit = some limit → ∀ {α : Type} fuel membership
    (test : UInt16 → Probing Host (Option α)) missed,
      Answers (s.allocator.searchWithinLimit fuel membership test missed)
          (·.attempts ≤ limit.toNat) ∧
        ∀ missed', (∀ port count w, count ≤ limit.toNat →
            missed' port count w = missed port count w) →
          s.allocator.searchWithinLimit fuel membership test missed' =
            s.allocator.searchWithinLimit fuel membership test missed
  /-- A given range that is unusable is refused before anything else is done. -/
  refused : ∀ fuel lower upper protocol world fault,
    PortRange.fault? ⟨lower, upper⟩ = some fault →
      s.randomPortInRange fuel lower upper protocol world =
        (.error (.failure (.invalidArgument (.range fault))), world)
  /-- In any other range the difference of the bounds can be taken, and the number of draws that is
  made from it fits in 32 bits. -/
  budgeted : ∀ lower upper : UInt16, PortRange.fault? ⟨lower, upper⟩ = none → lower ≤ upper ∧
    (upper - lower).toNat = upper.toNat - lower.toNat ∧
    (UInt32.ofNat drawsPerPort * (upper - lower).toUInt32).toNat =
      Allocator.budget ⟨lower, upper⟩

/-- A service that blames its caller for no question that leaves the address to it. -/
structure Unblaming : Prop where
  /-- Checking a port is no invalid question. -/
  available : ∀ port protocol, Fails (s.isAvailableByDefault port protocol)
    fun stop => ∀ fault, stop ≠ .failure (.invalidArgument fault)
  /-- Searching the general range is no invalid question. -/
  random : ∀ fuel protocol, Fails (s.randomPortByDefault fuel protocol)
    fun stop => ∀ fault, stop ≠ .failure (.invalidArgument fault)
  /-- Searching a given range is no invalid question, if the range is usable. -/
  inRange : ∀ fuel lower upper protocol, 1 ≤ lower → lower ≤ upper →
    Fails (s.randomPortInRange fuel lower upper protocol)
      fun stop => ∀ fault, stop ≠ .failure (.invalidArgument fault)

section

variable {s : Service}

/-- Both ranges of a valid configuration are usable. -/
theorem usable_rangeFor (hvalid : s.config.Valid) (membership : Bool) :
    (s.allocator.rangeFor membership).Usable := by
  cases membership with
  | false => exact hvalid.range
  | true => exact hvalid.membershipRange

/-- Drawing from a usable range does not meet inverted bounds. -/
theorem draw_ne_emptyRange {range : PortRange} (hrange : range.Usable) (fuel : Nat)
    (generator : GeneratorId) :
    Fails (draw fuel generator range : Allocating Host UInt16) (· ≠ .emptyRange) := by
  intro w stop w' hrun
  rcases draw_fails w stop w' hrun with rfl | ⟨-, hinverted⟩
  · simp
  · exact absurd hinverted (UInt16.not_lt.mpr hrange.lower_le)

/-- A failure is no inverted range. -/
theorem fails_ne_emptyRange {α : Type} (question : Probing Host α) :
    Fails question fun failure => Stop.failure failure ≠ .emptyRange := by
  intro w failure w' _
  simp

/-- Running out of steps is no inverted range. -/
theorem outOfSteps_ne_emptyRange {σ : Type} (a : Allocator σ) : a.outOfSteps ≠ .emptyRange := by
  unfold Allocator.outOfSteps
  split <;> simp

/-- In a service with a valid configuration no port is to be drawn from a range whose bounds are
inverted, whatever is asked. -/
theorem step_ne_emptyRange (hvalid : s.config.Valid) (keepers : List (String × Keeper))
    (listeners : List (String × SocketId)) (world : World Host) (fuel : Nat) (request : Request) :
    (Session.step fuel request ⟨s, keepers, listeners, world⟩).1 ≠ .stopped .emptyRange := by
  have hport (protocol : Protocol) (address : Option Address) (membership : Bool) :
      Fails (s.allocator.randomPort fuel protocol address membership) (· ≠ .emptyRange) :=
    s.allocator.randomPort_fails fuel membership
      (draw_ne_emptyRange (usable_rangeFor hvalid membership) fuel s.generator)
      (fun port => fails_ne_emptyRange _) (outOfSteps_ne_emptyRange s.allocator)
  have hkeeper (protocol : Protocol) (address : Option Address) (membership : Bool) :
      Fails (s.allocator.randomKeeper fuel protocol address membership) (· ≠ .emptyRange) :=
    s.allocator.randomKeeper_fails fuel membership
      (draw_ne_emptyRange (usable_rangeFor hvalid membership) fuel s.generator)
      (fun port => fails_ne_emptyRange _) (outOfSteps_ne_emptyRange s.allocator)
  cases request with
  | available port protocol address =>
    exact Session.ask_ne_stopped (Probing.onWorld_fails (fails_ne_emptyRange _))
      fun _ _ => by simp [Session.answer]
  | availableByDefault port protocol =>
    exact Session.ask_ne_stopped (Probing.onWorld_fails (fails_ne_emptyRange _))
      fun _ _ => by simp [Session.answer]
  | random protocol address membership =>
    exact Session.ask_ne_stopped (hport protocol address membership)
      fun _ _ => by simp [Session.answer]
  | randomByDefault protocol =>
    exact Session.ask_ne_stopped (hport protocol _ false) fun _ _ => by simp [Session.answer]
  | randomInRange lower upper protocol =>
    have hrange : Fails (s.randomPortInRange fuel lower upper protocol) (· ≠ .emptyRange) :=
      s.allocator.randomPortInRange_fails fuel (fun fault _ => by simp)
        (fun hfault => draw_ne_emptyRange (PortRange.fault?_eq_none_iff.mp hfault) fuel s.generator)
        fun port => fails_ne_emptyRange _
    exact Session.ask_ne_stopped hrange fun _ _ => by simp [Session.answer]
  | keep name port protocol address =>
    refine Session.ask_ne_stopped (Probing.onWorld_fails (fails_ne_emptyRange _)) fun kept _ => ?_
    cases kept <;> simp [Session.storeKept]
  | keepRandom name protocol address membership =>
    refine Session.ask_ne_stopped (hkeeper protocol address membership) fun keeper _ => ?_
    simp [Session.storeKept]
  | release name =>
    simp only [Session.step]
    split <;> simp
  | inspect name =>
    simp only [Session.step]
    split <;> simp
  | takeListener name =>
    simp only [Session.step]
    split
    · simp
    · split <;> simp
  | drop | foreignListens | foreignStops => simp [Session.step]

/-- A port that a request draws comes from the range from which it should, which is usable. -/
theorem mem_candidates (hvalid : s.config.Valid) (fuel : Nat) (world : World Host)
    (request : Request) : ∀ port ∈ s.candidates fuel world request,
      ∃ range ∈ s.drawsFrom request, range.Usable ∧ range.contains port = true := by
  intro port hport
  have hlimit (membership : Bool) {α : Type}
      {test : UInt16 → Probing Host (Option α)} {missed : UInt16 → Nat → World Host → World Host}
      (hmem : port ∈ s.allocator.drawnWithinLimit fuel membership test missed world) :
      (s.allocator.rangeFor membership).contains port = true :=
    holds_of_mem_drawn draw_answers _ _ _ port hmem
  cases request with
  | random protocol address membership =>
    exact ⟨_, rfl, usable_rangeFor hvalid membership, hlimit membership hport⟩
  | keepRandom name protocol address membership =>
    exact ⟨_, rfl, usable_rangeFor hvalid membership, hlimit membership hport⟩
  | randomByDefault protocol => exact ⟨_, rfl, hvalid.range, hlimit false hport⟩
  | randomInRange lower upper protocol =>
    simp only [candidates, Allocator.drawnInRange] at hport
    cases hfault : PortRange.fault? ⟨lower, upper⟩ with
    | some fault =>
      rw [hfault] at hport
      cases hport
    | none =>
      rw [hfault] at hport
      exact ⟨_, rfl, PortRange.fault?_eq_none_iff.mp hfault,
        holds_of_mem_drawn draw_answers _ _ _ port hport⟩
  | available | availableByDefault | keep | release | inspect | drop | takeListener
  | foreignListens | foreignStops => cases hport

/-- A request draws no more ports than it may. -/
theorem length_candidates_le (s : Service) (fuel : Nat) (world : World Host) (request : Request) :
    ∀ most ∈ s.drawsAtMost request, (s.candidates fuel world request).length ≤ most := by
  intro most hmost
  have hlimit (membership : Bool) {α : Type} (test : UInt16 → Probing Host (Option α))
      (missed : UInt16 → Nat → World Host → World Host)
      (hmost : most ∈ s.config.attemptLimit.map (·.toNat)) :
      (s.allocator.drawnWithinLimit fuel membership test missed world).length ≤ most := by
    obtain ⟨limit, hlimit, rfl⟩ := Option.map_eq_some_iff.mp hmost
    exact s.allocator.length_drawnWithinLimit_le fuel membership hlimit world
  cases request with
  | random protocol address membership => exact hlimit membership _ _ hmost
  | keepRandom name protocol address membership => exact hlimit membership _ _ hmost
  | randomByDefault protocol => exact hlimit false _ _ hmost
  | randomInRange lower upper protocol =>
    obtain rfl : Allocator.budget ⟨lower, upper⟩ = most := Option.some.inj hmost
    simp only [candidates, Allocator.drawnInRange]
    split
    · exact Nat.zero_le _
    · exact length_drawn_le _ _ _
  | available | availableByDefault | keep | release | inspect | drop | takeListener
  | foreignListens | foreignStops => exact Nat.zero_le _

/-- The arithmetic of the search in a usable range stays within its bounds. -/
theorem budget_fits {lower upper : UInt16} (hle : lower ≤ upper) :
    (upper - lower).toNat = upper.toNat - lower.toNat ∧
      (UInt32.ofNat drawsPerPort * (upper - lower).toUInt32).toNat =
        Allocator.budget ⟨lower, upper⟩ := by
  have hsub := UInt16.toNat_sub_of_le upper lower hle
  have hupper : upper.toNat < 65536 := upper.toNat_lt
  refine ⟨hsub, ?_⟩
  rw [UInt32.toNat_mul, UInt16.toNat_toUInt32, hsub, UInt32.toNat_ofNat']
  simp only [Allocator.budget, drawsPerPort]
  omega

/-- A service with a valid configuration keeps to its bounds. -/
theorem guarded_of_valid (hvalid : s.config.Valid) : s.Guarded where
  ordered := step_ne_emptyRange hvalid
  inRange fuel world request port hport := by
    obtain ⟨range, hrange, husable, hcontains⟩ :=
      mem_candidates hvalid fuel world request port hport
    exact ⟨husable.ne_zero hcontains, range, hrange, husable, hcontains⟩
  limited := s.length_candidates_le
  counted limit hlimit _ fuel membership _ _ :=
    ⟨s.allocator.searchWithinLimit_attempts_le fuel membership hlimit, fun _ =>
      s.allocator.searchWithinLimit_congr_missed fuel membership hlimit⟩
  refused fuel lower upper protocol world fault hfault := by
    simp only [randomPortInRange, Allocator.randomPortInRange, hfault]
    rfl
  budgeted lower upper hfault := by
    have husable := PortRange.fault?_eq_none_iff.mp hfault
    exact ⟨husable.lower_le, budget_fits husable.lower_le⟩

end

/-- The group that is asked in under a valid configuration is a multicast address. -/
theorem isMulticast_group {config : Config} (hvalid : config.Valid) :
    (config.group.getD config.probeOptions.group).isMulticast = true := by
  have hdefault : defaultGroup.isMulticast = true := by decide
  cases hgroup : config.group with
  | none => simpa [Config.probeOptions, hgroup] using hdefault
  | some address => exact hvalid.group address hgroup

/-- A service that probes as its valid configuration says blames its caller for no question that
leaves the address to it. -/
theorem unblaming_of_valid {config : Config} (hvalid : config.Valid) (generator : GeneratorId) :
    Unblaming ⟨config, { options := config.probeOptions }, generator⟩ := by
  let s : Service := ⟨config, { options := config.probeOptions }, generator⟩
  have hprobe (protocol : Protocol) (port : UInt16) :
      Fails (s.prober.isAvailable port protocol (config.addressFor protocol))
        fun failure => ∀ fault, Stop.failure failure ≠ .failure (.invalidArgument fault) := by
    have hgroup : protocol = .multicast →
        ((config.addressFor protocol).getD s.prober.options.group).isMulticast = true := by
      rintro rfl
      exact isMulticast_group hvalid
    rintro w failure w' hrun fault ⟨rfl⟩
    have hhost := s.prober.isAvailable_fails port hgroup w _ w' hrun
    simp [Failure.isHostFailure] at hhost
  have hdraw (fuel : Nat) (range : PortRange) :
      Fails (draw fuel generator range : Allocating Host UInt16)
        fun stop => ∀ fault, stop ≠ .failure (.invalidArgument fault) := by
    intro w stop w' hrun fault
    rcases draw_fails w stop w' hrun with rfl | ⟨rfl, -⟩ <;> simp
  have hout : ∀ fault, s.allocator.outOfSteps ≠ .failure (.invalidArgument fault) := by
    intro fault
    unfold Allocator.outOfSteps
    split <;> simp
  constructor
  case available => exact fun port protocol => Probing.onWorld_fails (hprobe protocol port)
  case random =>
    exact fun fuel protocol =>
      s.allocator.randomPort_fails fuel false (hdraw fuel _) (hprobe protocol) hout
  case inRange =>
    intro fuel lower upper protocol hlower hupper
    have husable : PortRange.Usable ⟨lower, upper⟩ := PortRange.usable_of_one_le hlower hupper
    refine s.allocator.randomPortInRange_fails fuel (fun fault hfault => ?_)
      (fun _ => hdraw fuel _) (hprobe protocol)
    rw [PortRange.fault?_eq_none_iff.mpr husable] at hfault
    cases hfault

/-- Whatever a configuration is read from, it passes its check, and a service is made for no other
configuration. However it is made, the service keeps to its bounds, and one that probes as its
configuration says blames its caller for no question that leaves the address to it. -/
theorem made_valid_and_guarded :
    (∀ config : Config, config.check = .ok config ↔ config.Valid) ∧
      (∀ content config, Config.load content = .ok config → config.Valid) ∧
      (∀ base env, Answers (Config.overlay base env) Config.Valid) ∧
      (∀ config prober generator s, ofProber config prober generator = .ok s →
        s.config = config ∧ config.Valid ∧ s.Guarded) ∧
      (∀ config generator s, ofGenerator config generator = .ok s →
        s.config = config ∧ config.Valid ∧ s.Guarded ∧ s.Unblaming) ∧
      ∀ config, Answers (ofProcess config : Allocating Host Service) fun s =>
        s.config = config ∧ config.Valid ∧ s.Guarded ∧ s.Unblaming := by
  have hprober : ∀ config prober generator s, ofProber config prober generator = .ok s →
      s.config = config ∧ config.Valid ∧ s.Guarded := by
    intro config prober generator s hmade
    obtain ⟨rfl, hvalid⟩ := ofProber_eq_ok_iff.mp hmade
    exact ⟨rfl, hvalid, guarded_of_valid hvalid⟩
  have hgenerator : ∀ config generator s, ofGenerator config generator = .ok s →
      s.config = config ∧ config.Valid ∧ s.Guarded ∧ s.Unblaming := by
    intro config generator s hmade
    obtain ⟨hconfig, hvalid, hguarded⟩ := hprober _ _ _ _ hmade
    obtain ⟨rfl, -⟩ := ofProber_eq_ok_iff.mp hmade
    exact ⟨hconfig, hvalid, hguarded, unblaming_of_valid hvalid generator⟩
  refine ⟨fun config => ?_, fun _ _ => Config.valid_of_load, Config.valid_of_overlay, hprober,
    hgenerator, fun config w s w' hrun => ?_⟩
  · rw [Config.check_eq_ok_iff]
    exact ⟨fun h => h.2, fun hvalid => ⟨rfl, hvalid⟩⟩
  · obtain ⟨generator, hmade⟩ := ofProcess_answers config w s w' hrun
    exact hgenerator config generator s hmade

/-- A text that allows three attempts gives a valid configuration, and the service made for that
draws no more than three ports from the general range. -/
theorem made_valid_and_guarded_of_text :
    let config : Config := { attemptLimit := some 3 }
    Config.load (.ok "randomAttemptLimit: 3".toUTF8) = .ok config ∧ config.Valid ∧
      ∃ s, ofGenerator config 0 = .ok s ∧ s.Unblaming ∧ ∀ fuel world,
        (s.candidates fuel world (.random .stream none false)).length ≤ 3 := by
  intro config
  obtain ⟨-, hload, -, -, hgenerator, -⟩ := made_valid_and_guarded
  have hloaded : Config.load (.ok "randomAttemptLimit: 3".toUTF8) = .ok config := by
    decide +kernel
  have hvalid := hload _ _ hloaded
  have hmade := ofProber_eq_ok_iff.mpr
    ⟨Eq.refl (⟨config, { options := config.probeOptions }, 0⟩ : Service), hvalid⟩
  obtain ⟨-, -, hguarded, hunblaming⟩ := hgenerator config 0 _ hmade
  exact ⟨hloaded, hvalid, _, hmade, hunblaming, fun fuel world =>
    hguarded.limited fuel world (.random .stream none false) 3 rfl⟩

end Service

end PortWarden
