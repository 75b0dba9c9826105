import PortWarden.Probe.Scripted
import PortWarden.Proofs.Candidates
import PortWarden.Proofs.Guarding

/-!
# Limits and budgets of searches

The search for a random port tries candidates until one is free, within a limit if there is one; the
search in a given range tries as many as five times the difference of its bounds. Which candidate
decides, and what is answered if none does, is said here of every probe, whatever state it answers
by, and of every generator.

In a range of a single port the difference of the bounds is zero. So nothing is drawn there, and the
port is not found even if it is free; in every larger range that is free a port is found.
-/

namespace PortWarden

namespace Allocator

variable {σ : Type} (a : Allocator σ) (protocol : Protocol) (address : Option Address)

/-- The candidates of the search for a free port of a configured range. -/
def candidates (membership : Bool) : Candidates σ where
  generator := a.generator
  range := a.rangeFor membership
  isAvailable := (a.probe.isAvailable · protocol address)
  missed port count l := l.note (.candidateInUse port count)

/-- The candidates of the search for a free port of a given range. -/
def candidatesIn (range : PortRange) : Candidates σ where
  generator := a.generator
  range := range
  isAvailable := (a.probe.isAvailable · protocol address)
  missed _ _ l := l

/-- What the search for a free port of a configured range reports of its end. -/
def portReport : Option (Found Unit) → Allocating σ UInt16
  | some found => do
    modify (·.note (.portSelected found.port protocol found.attempts))
    return found.port
  | none => throw a.outOfSteps

/-- What the search for a free port of a given range reports of its end. -/
def rangeReport (range : PortRange) : Option (Found Unit) → Allocating σ (Option UInt16)
  | some found => do
    modify (·.note (.rangePortSelected found.port protocol found.attempts))
    return some found.port
  | none => do
    modify (·.note (.rangeExhausted range (budget range)))
    return none

/-- The search among these candidates is the one for a free port of a configured range. -/
theorem search_candidates (membership : Bool) (fuel steps attempts : Nat) :
    (a.candidates protocol address membership).search fuel steps attempts =
      search (draw fuel a.generator (a.rangeFor membership)) (a.check protocol address)
        (fun port attempts w => w.note (.candidateInUse port attempts)) steps attempts := rfl

/-- The search for a free port of a configured range tries candidates within the limit. -/
theorem randomPort_answer {membership : Bool}
    (horder : (a.rangeFor membership).lower ≤ (a.rangeFor membership).upper) :
    (a.candidates protocol address membership).Answer (a.attemptLimit.map (·.toNat))
      (a.portReport protocol) (a.randomPort · protocol address membership) := by
  refine Candidates.answer_of_search horder a.steps (fun fuel => ?_) ?_
  · funext w
    rw [randomPort, chain_apply, searchWithinLimit_apply, chain_apply, search_candidates]
    rcases search (draw fuel a.generator (a.rangeFor membership)) (a.check protocol address)
      (fun port attempts w => w.note (.candidateInUse port attempts)) (a.steps fuel) 0 w with
      ⟨stop | _ | found, u⟩ <;> rfl
  · cases hlimit : a.attemptLimit with
    | some limit => exact .inl fun fuel => by simp [steps, hlimit]
    | none =>
      -- the steps are what it is watched, so that to run out of them is to be unfinished
      refine .inr ⟨rfl, fun fuel => by simp [steps, hlimit], fun u => ?_⟩
      simp only [portReport, outOfSteps, hlimit]
      rfl

/-- The search for a free port of a usable range tries as many candidates as its budget allows. -/
theorem randomPortInRange_answer {lower upper : UInt16}
    (husable : PortRange.Usable ⟨lower, upper⟩) :
    (a.candidatesIn protocol address ⟨lower, upper⟩).Answer (some (budget ⟨lower, upper⟩))
      (rangeReport protocol ⟨lower, upper⟩)
      (a.randomPortInRange · lower upper protocol address) := by
  have hfault := PortRange.fault?_eq_none_iff.mpr husable
  refine Candidates.answer_of_search husable.lower_le (fun _ => budget ⟨lower, upper⟩)
    (fun fuel => ?_) (.inl fun _ => rfl)
  simp only [randomPortInRange, hfault]
  rfl

/-- How the search for a free port of a configured range comes out, whatever the probe answers. -/
structure PicksFirstFree (membership : Bool) (w : World σ) : Prop where
  /-- A port is answered exactly if it is the first candidate that is not in use, it is free, and
  the limit reaches to it. -/
  found : ∀ port w', ComesTo (a.randomPort · protocol address membership) w (.ok port) w' ↔
    ∃ ports u, (∀ limit ∈ a.attemptLimit, ports.length + 1 ≤ limit.toNat) ∧
      (a.candidates protocol address membership).Tries w ports port (.ok true) u ∧
      w' = u.note (.portSelected port protocol (ports.length + 1))
  /-- A failure is answered exactly if it is the answer about the first candidate that is not in
  use, to which the limit reaches, or if as many candidates as the limit allows are in use. -/
  failed : ∀ failure w',
    ComesTo (a.randomPort · protocol address membership) w (.error (.failure failure)) w' ↔
      (∃ ports port, (∀ limit ∈ a.attemptLimit, ports.length + 1 ≤ limit.toNat) ∧
        (a.candidates protocol address membership).Tries w ports port (.error failure) w') ∨
      ∃ limit ports, a.attemptLimit = some limit ∧ ports.length = limit.toNat ∧
        (a.candidates protocol address membership).Misses w ports w' ∧
        failure = .exhausted limit.toNat
  /-- Unless the probe tells of used up attempts itself, the search does so exactly if as many
  candidates as the limit allows are in use. -/
  exhausted : ∀ limit, a.attemptLimit = some limit →
    (∀ port, Fails (a.probe.isAvailable port protocol address) (· ≠ .exhausted limit.toNat)) →
      ∀ w', ComesTo (a.randomPort · protocol address membership) w
          (.error (.failure (.exhausted limit.toNat))) w' ↔
        ∃ ports, ports.length = limit.toNat ∧
          (a.candidates protocol address membership).Misses w ports w'
  /-- Without a limit there is an answer exactly if a candidate is not in use. -/
  unlimited : a.attemptLimit = none →
    ((∃ fuel, (a.randomPort fuel protocol address membership w).1 ≠ .error .unfinished) ↔
      ∃ ports port answer u,
        (a.candidates protocol address membership).Tries w ports port answer u ∧
          answer ≠ .ok false)
  /-- Within a limit there is an answer, unless the generator never comes to a candidate. -/
  limited : ∀ limit, a.attemptLimit = some limit →
    (∃ fuel, (a.randomPort fuel protocol address membership w).1 ≠ .error .unfinished) ∨
      ∃ ports u, ports.length < limit.toNat ∧
        (a.candidates protocol address membership).Misses w ports u ∧
        ∀ port r, ¬u.randomness.Draws a.generator (a.rangeFor membership) port r
  /-- Whatever is answered at some time is a port or a failure, and stays the answer. -/
  settled : ∀ fuel, (a.randomPort fuel protocol address membership w).1 ≠ .error .unfinished →
    (a.randomPort fuel protocol address membership w).1 ≠ .error .emptyRange ∧
      ComesTo (a.randomPort · protocol address membership) w
        (a.randomPort fuel protocol address membership w).1
        (a.randomPort fuel protocol address membership w).2
  /-- The candidates up to one that decides are the ports that the generator yields from the
  range. -/
  tried : ∀ {ports port answer u},
    (a.candidates protocol address membership).Tries w ports port answer u →
      w.randomness.Yields a.generator (a.rangeFor membership) (ports ++ [port]) u.randomness
  /-- So are the candidates of which none decides. -/
  missed : ∀ {ports u}, (a.candidates protocol address membership).Misses w ports u →
    w.randomness.Yields a.generator (a.rangeFor membership) ports u.randomness

section

variable {a} {protocol} {address}

/-- What is answered to the end of a search for a port is a port or a failure. -/
theorem answerTo_portReport {membership : Bool} {w u : World σ}
    {ending : Except Failure (Option (Found Unit))}
    (hends : (a.candidates protocol address membership).Ends (a.attemptLimit.map (·.toNat)) w
      ending u) :
    (Candidates.answerTo (a.portReport protocol) ending u).1 ≠ .error .unfinished ∧
      (Candidates.answerTo (a.portReport protocol) ending u).1 ≠ .error .emptyRange := by
  cases hends with
  | found => constructor <;> rintro ⟨⟩
  | failed => constructor <;> rintro ⟨⟩
  | usedUp hmost =>
    obtain ⟨limit, hlimit, -⟩ := Option.map_eq_some_iff.mp hmost
    simp only [Candidates.answerTo, portReport, outOfSteps, hlimit]
    constructor <;> rintro ⟨⟩

/-- The search for a port comes to a failure if a question fails, or the limit is used up. -/
theorem comesTo_failure_iff {membership : Bool}
    (horder : (a.rangeFor membership).lower ≤ (a.rangeFor membership).upper) {w w' : World σ}
    {failure : Failure} :
    ComesTo (a.randomPort · protocol address membership) w (.error (.failure failure)) w' ↔
      (∃ ports port, (∀ limit ∈ a.attemptLimit, ports.length + 1 ≤ limit.toNat) ∧
        (a.candidates protocol address membership).Tries w ports port (.error failure) w') ∨
      ∃ limit ports, a.attemptLimit = some limit ∧ ports.length = limit.toNat ∧
        (a.candidates protocol address membership).Misses w ports w' ∧
        failure = .exhausted limit.toNat := by
  rw [(a.randomPort_answer protocol address horder).comesTo_iff (by simp)]
  constructor
  · rintro ⟨ending, u, hends, hreport⟩
    cases hends with
    | found => cases hreport
    | @failed ports port failure u hfew htries =>
      cases hreport
      exact .inl ⟨ports, port, by simpa using hfew, htries⟩
    | @usedUp ports u hmost hmisses =>
      obtain ⟨limit, hlimit, hlength⟩ := Option.map_eq_some_iff.mp hmost
      simp only [Candidates.answerTo, portReport, outOfSteps, hlimit] at hreport
      cases hreport
      exact .inr ⟨limit, ports, hlimit, hlength.symm, hmisses, rfl⟩
  · rintro (⟨ports, port, hfew, htries⟩ | ⟨limit, ports, hlimit, hlength, hmisses, rfl⟩)
    · exact ⟨_, w', .failed (by simpa using hfew) htries, rfl⟩
    · refine ⟨_, w', .usedUp (by simp [hlimit, hlength]) hmisses, ?_⟩
      simp only [Candidates.answerTo, portReport, outOfSteps, hlimit]
      rfl

/-- The search for a free port of a range whose bounds are in order answers the first candidate that
is free, unless a question fails before or the limit is used up. -/
theorem picks_first_free {membership : Bool}
    (horder : (a.rangeFor membership).lower ≤ (a.rangeFor membership).upper) (w : World σ) :
    a.PicksFirstFree protocol address membership w := by
  have hanswer := a.randomPort_answer protocol address horder
  have hfinished {ending : Except Failure (Option (Found Unit))} {u : World σ}
      (hends : (a.candidates protocol address membership).Ends (a.attemptLimit.map (·.toNat)) w
        ending u) :
      ∃ fuel, (a.randomPort fuel protocol address membership w).1 ≠ .error .unfinished :=
    hanswer.finishes hends (answerTo_portReport hends).1
  constructor
  case found =>
    intro port w'
    rw [hanswer.comesTo_iff (by simp)]
    constructor
    · rintro ⟨ending, u, hends, hreport⟩
      cases hends with
      | @found ports port u hfew htries =>
        cases hreport
        exact ⟨ports, u, by simpa using hfew, htries, rfl⟩
      | failed => cases hreport
      | usedUp => cases hreport
    · rintro ⟨ports, u, hfew, htries, rfl⟩
      exact ⟨_, u, .found (by simpa using hfew) htries, rfl⟩
  case failed => exact fun _ _ => comesTo_failure_iff horder
  case exhausted =>
    intro limit hlimit hprobe w'
    rw [comesTo_failure_iff horder]
    constructor
    · -- the failure is not the probe's, so that it is the search's
      rintro (⟨ports, port, -, u, r, l, -, -, hask, -⟩ | ⟨_, ports, hsame, hlength, hmisses, -⟩)
      · exact absurd rfl (hprobe port _ _ _ hask)
      · obtain rfl := Option.some.inj (hlimit.symm.trans hsame)
        exact ⟨ports, hlength, hmisses⟩
    · rintro ⟨ports, hlength, hmisses⟩
      exact .inr ⟨limit, ports, hlimit, hlength, hmisses, rfl⟩
  case unlimited =>
    intro hlimit
    constructor
    · rintro ⟨fuel, hfuel⟩
      rcases hanswer.given fuel w with hunfinished | ⟨ending, u, hends, -⟩
      · exact absurd hunfinished hfuel
      · cases hends with
        | @found ports port u _ htries => exact ⟨ports, port, _, u, htries, by simp⟩
        | @failed ports port failure u _ htries => exact ⟨ports, port, _, u, htries, by simp⟩
        | usedUp hmost => simp [hlimit] at hmost
    · rintro ⟨ports, port, failure | _ | _, u, htries, hanswered⟩
      · exact hfinished (.failed (by simp [hlimit]) htries)
      · exact absurd rfl hanswered
      · exact hfinished (.found (by simp [hlimit]) htries)
  case limited =>
    intro limit hlimit
    have hmost : a.attemptLimit.map (·.toNat) = some limit.toNat := by simp [hlimit]
    rcases (a.candidates protocol address membership).decided_or_stuck w limit.toNat with
      ⟨ending, u, hends⟩ | hstuck
    · exact .inl (hfinished (hmost ▸ hends))
    · exact .inr hstuck
  case settled =>
    intro fuel hfuel
    refine ⟨?_, hanswer.settles hfuel⟩
    rcases hanswer.given fuel w with hunfinished | ⟨ending, u, hends, hrun⟩
    · exact absurd hunfinished hfuel
    · rw [hrun]
      exact (answerTo_portReport hends).2
  case tried => exact fun htries => htries.yields
  case missed => exact fun hmisses => hmisses.yields

/-- Of three candidates the third is free. It is answered within the limit, which is three. -/
theorem picks_first_free_of_script :
    let a : Allocator Script := ⟨Script.probe, 0, ⟨30000, 30003⟩, ⟨40000, 40003⟩, some 3⟩
    let w : World Script :=
      { state := { free := [⟨30003, 30003⟩], failAt := none, host := {} }
        randomness := { entropy := .cycle [0, 0x40000000, 0xc0000000] } }
    (a.rangeFor false).lower ≤ (a.rangeFor false).upper ∧
      ∃ ports u w', ComesTo (a.randomPort · .stream none false) w (.ok 30003) w' ∧
        ports.length + 1 ≤ 3 ∧
        (a.candidates .stream none false).Tries w ports 30003 (.ok true) u ∧
        w' = u.note (.portSelected 30003 .stream (ports.length + 1)) := by
  intro a w
  have horder : (a.rangeFor false).lower ≤ (a.rangeFor false).upper := by decide
  have hpicks : a.PicksFirstFree .stream none false w := picks_first_free horder w
  have hrun : (a.randomPort 3 .stream none false w).1 = .ok 30003 := by decide +kernel
  have hcomes := (hpicks.settled 3 (by rw [hrun]; simp)).2
  rw [hrun] at hcomes
  obtain ⟨ports, u, hfew, htries, hw'⟩ := (hpicks.found _ _).mp hcomes
  exact ⟨horder, ports, u, _, hcomes, hfew 3 rfl, htries, hw'⟩

end

/-- How the search for a free port of a given range comes out, whatever the probe answers, if the
bounds are in order and port 0 is not among them. -/
structure PicksFirstFreeIn (lower upper : UInt16) (w : World σ) : Prop where
  /-- A port is answered exactly if it is the first candidate that is not in use, it is free, and
  the budget reaches to it. -/
  found : ∀ port w',
    ComesTo (a.randomPortInRange · lower upper protocol address) w (.ok (some port)) w' ↔
      ∃ ports u, ports.length + 1 ≤ 5 * (upper.toNat - lower.toNat) ∧
        (a.candidatesIn protocol address ⟨lower, upper⟩).Tries w ports port (.ok true) u ∧
        w' = u.note (.rangePortSelected port protocol (ports.length + 1))
  /-- A failure is answered exactly if it is the answer about the first candidate that is not in
  use, and the budget reaches to it. -/
  failed : ∀ failure w',
    ComesTo (a.randomPortInRange · lower upper protocol address) w
        (.error (.failure failure)) w' ↔
      ∃ ports port, ports.length + 1 ≤ 5 * (upper.toNat - lower.toNat) ∧
        (a.candidatesIn protocol address ⟨lower, upper⟩).Tries w ports port (.error failure) w'
  /-- No port is answered exactly if as many candidates as the budget allows are in use. -/
  usedUp : ∀ w', ComesTo (a.randomPortInRange · lower upper protocol address) w (.ok none) w' ↔
    ∃ ports u, ports.length = 5 * (upper.toNat - lower.toNat) ∧
      (a.candidatesIn protocol address ⟨lower, upper⟩).Misses w ports u ∧
      w' = u.note (.rangeExhausted ⟨lower, upper⟩ (5 * (upper.toNat - lower.toNat)))
  /-- There is an answer, unless the generator never comes to a candidate. -/
  answered : (∃ fuel, (a.randomPortInRange fuel lower upper protocol address w).1 ≠
      .error .unfinished) ∨
    ∃ ports u, ports.length < 5 * (upper.toNat - lower.toNat) ∧
      (a.candidatesIn protocol address ⟨lower, upper⟩).Misses w ports u ∧
      ∀ port r, ¬u.randomness.Draws a.generator ⟨lower, upper⟩ port r
  /-- Whatever is answered at some time is a port, none, or a failure, and stays the answer. -/
  settled : ∀ fuel, (a.randomPortInRange fuel lower upper protocol address w).1 ≠
      .error .unfinished →
    (a.randomPortInRange fuel lower upper protocol address w).1 ≠ .error .emptyRange ∧
      ComesTo (a.randomPortInRange · lower upper protocol address) w
        (a.randomPortInRange fuel lower upper protocol address w).1
        (a.randomPortInRange fuel lower upper protocol address w).2
  /-- The candidates up to one that decides are the ports that the generator yields from the range,
  and lie in it. -/
  tried : ∀ {ports port answer u},
    (a.candidatesIn protocol address ⟨lower, upper⟩).Tries w ports port answer u →
      w.randomness.Yields a.generator ⟨lower, upper⟩ (ports ++ [port]) u.randomness ∧
        ∀ candidate ∈ ports ++ [port], lower ≤ candidate ∧ candidate ≤ upper
  /-- So are the candidates of which none decides. -/
  missed : ∀ {ports u}, (a.candidatesIn protocol address ⟨lower, upper⟩).Misses w ports u →
    w.randomness.Yields a.generator ⟨lower, upper⟩ ports u.randomness ∧
      ∀ candidate ∈ ports, lower ≤ candidate ∧ candidate ≤ upper
  /-- The budget is computed without leaving 32 bits. -/
  budgeted : (upper - lower).toNat = upper.toNat - lower.toNat ∧
    (5 * (upper - lower).toUInt32).toNat = 5 * (upper.toNat - lower.toNat)

section

variable {a} {protocol} {address}

/-- What is answered to the end of a search in a given range is a port, none, or a failure. -/
theorem answerTo_rangeReport (range : PortRange) (ending : Except Failure (Option (Found Unit)))
    (u : World σ) :
    (Candidates.answerTo (rangeReport protocol range) ending u).1 ≠ .error .unfinished ∧
      (Candidates.answerTo (rangeReport protocol range) ending u).1 ≠ .error .emptyRange := by
  rcases ending with failure | _ | found <;> constructor <;> rintro ⟨⟩

/-- A port of a range is one between its bounds. -/
theorem bounds_of_contains {lower upper port : UInt16}
    (hcontains : PortRange.contains ⟨lower, upper⟩ port = true) : lower ≤ port ∧ port ≤ upper := by
  simpa [PortRange.contains] using hcontains

/-- The search in a usable range answers the first candidate that is free, unless a question fails
before or the budget is used up. -/
theorem picksFirstFreeIn_of_usable {lower upper : UInt16}
    (husable : PortRange.Usable ⟨lower, upper⟩) (w : World σ) :
    a.PicksFirstFreeIn protocol address lower upper w := by
  have hanswer := a.randomPortInRange_answer protocol address husable
  have horder : (a.candidatesIn protocol address ⟨lower, upper⟩).range.lower ≤
      (a.candidatesIn protocol address ⟨lower, upper⟩).range.upper := husable.lower_le
  constructor
  case found =>
    intro port w'
    rw [hanswer.comesTo_iff (by simp)]
    constructor
    · rintro ⟨ending, u, hends, hreport⟩
      cases hends with
      | @found ports port u hfew htries =>
        cases hreport
        exact ⟨ports, u, hfew _ rfl, htries, rfl⟩
      | failed => cases hreport
      | usedUp => cases hreport
    · rintro ⟨ports, u, hfew, htries, rfl⟩
      exact ⟨_, u, .found (by rintro _ ⟨rfl⟩; exact hfew) htries, rfl⟩
  case failed =>
    intro failure w'
    rw [hanswer.comesTo_iff (by simp)]
    constructor
    · rintro ⟨ending, u, hends, hreport⟩
      cases hends with
      | found => cases hreport
      | @failed ports port failure u hfew htries =>
        cases hreport
        exact ⟨ports, port, hfew _ rfl, htries⟩
      | usedUp => cases hreport
    · rintro ⟨ports, port, hfew, htries⟩
      exact ⟨_, w', .failed (by rintro _ ⟨rfl⟩; exact hfew) htries, rfl⟩
  case usedUp =>
    intro w'
    rw [hanswer.comesTo_iff (by simp)]
    constructor
    · rintro ⟨ending, u, hends, hreport⟩
      cases hends with
      | found => cases hreport
      | failed => cases hreport
      | @usedUp ports u hmost hmisses =>
        cases hreport
        exact ⟨ports, u, (Option.some.inj hmost).symm, hmisses, rfl⟩
    · rintro ⟨ports, u, hlength, hmisses, rfl⟩
      exact ⟨_, u, .usedUp (congrArg some hlength.symm) hmisses, rfl⟩
  case answered =>
    rcases (a.candidatesIn protocol address ⟨lower, upper⟩).decided_or_stuck w
      (budget ⟨lower, upper⟩) with ⟨ending, u, hends⟩ | hstuck
    · exact .inl (hanswer.finishes hends (answerTo_rangeReport _ ending u).1)
    · exact .inr hstuck
  case settled =>
    intro fuel hfuel
    refine ⟨?_, hanswer.settles hfuel⟩
    rcases hanswer.given fuel w with hunfinished | ⟨ending, u, -, hrun⟩
    · exact absurd hunfinished hfuel
    · rw [hrun]
      exact (answerTo_rangeReport _ ending u).2
  case tried =>
    intro ports port answer u htries
    exact ⟨htries.yields, fun candidate hcandidate =>
      bounds_of_contains (htries.contains horder candidate hcandidate)⟩
  case missed =>
    intro ports u hmisses
    exact ⟨hmisses.yields, fun candidate hcandidate =>
      bounds_of_contains (hmisses.contains horder candidate hcandidate)⟩
  case budgeted => exact Service.budget_fits husable.lower_le

/-- An unusable range is refused before anything is drawn or asked. In any other the first candidate
that is free is answered, unless a question fails before or the budget is used up. What ranges and
what limit are configured makes no difference. -/
theorem picks_first_free_in_range (a : Allocator σ) (protocol : Protocol)
    (address : Option Address) (lower upper : UInt16) :
    (lower = 0 ∨ upper < lower → ∃ fault, ∀ fuel w,
      a.randomPortInRange fuel lower upper protocol address w =
        (.error (.failure (.invalidArgument (.range fault))), w)) ∧
    (1 ≤ lower → lower ≤ upper → ∀ w, a.PicksFirstFreeIn protocol address lower upper w) ∧
    ∀ range membershipRange attemptLimit,
      randomPortInRange ⟨a.probe, a.generator, range, membershipRange, attemptLimit⟩ =
        a.randomPortInRange := by
  refine ⟨fun hunusable => ?_, fun hpositive hle w => ?_, fun _ _ _ => rfl⟩
  · cases hfault : PortRange.fault? ⟨lower, upper⟩ with
    | none =>
      obtain ⟨hne, hle⟩ := PortRange.fault?_eq_none_iff.mp hfault
      rcases hunusable with hzero | hinverted
      · exact absurd hzero hne
      · exact absurd hle (UInt16.not_le.mpr hinverted)
    | some fault =>
      refine ⟨fault, fun fuel w => ?_⟩
      simp only [randomPortInRange, hfault]
      rfl
  · exact picksFirstFreeIn_of_usable (PortRange.usable_of_one_le hpositive hle) w

/-- The budget for the range of two ports is five. If both are in use, five candidates are missed,
and no port is answered. -/
theorem picks_first_free_in_range_of_script :
    let a : Allocator Script := ⟨Script.probe, 0, ⟨1024, 65535⟩, ⟨1024, 65535⟩, some 1⟩
    let w : World Script :=
      { state := { free := [], failAt := none, host := {} }
        randomness := { entropy := .cycle [0, 0x40000000, 0xc0000000] } }
    (∃ fault, a.randomPortInRange 1 30001 30000 .stream none w =
        (.error (.failure (.invalidArgument (.range fault))), w)) ∧
      ∃ ports u w', ComesTo (a.randomPortInRange · 30000 30001 .stream none) w (.ok none) w' ∧
        ports.length = 5 ∧ (a.candidatesIn .stream none ⟨30000, 30001⟩).Misses w ports u ∧
        ∀ port ∈ ports, 30000 ≤ port ∧ port ≤ 30001 := by
  intro a w
  obtain ⟨fault, hrefused⟩ := (a.picks_first_free_in_range .stream none 30001 30000).1 (by decide)
  have hpicks :=
    (a.picks_first_free_in_range .stream none 30000 30001).2.1 (by decide) (by decide) w
  have hrun : (a.randomPortInRange 1 30000 30001 .stream none w).1 = .ok none := by
    decide +kernel
  have hcomes := (hpicks.settled 1 (by rw [hrun]; simp)).2
  rw [hrun] at hcomes
  obtain ⟨ports, u, hlength, hmisses, -⟩ := (hpicks.usedUp _).mp hcomes
  exact ⟨⟨fault, hrefused 1 w⟩, ports, u, _, hcomes, hlength, hmisses, (hpicks.missed hmisses).2⟩

/-- If all ports of a range of several are free, one of them is found. The search is only kept from
it by a generator all of whose words are refused. -/
theorem finds_port_of_free_range {lower upper : UInt16} (hpositive : 1 ≤ lower)
    (hlt : lower < upper) (w : World σ)
    (hfree : ∀ port, lower ≤ port → port ≤ upper →
      (a.probe.isAvailable port protocol address w.toLogged).1 = .ok true) :
    (∀ fuel, (a.randomPortInRange fuel lower upper protocol address w).1 = .error .unfinished ∨
      ∃ port, lower ≤ port ∧ port ≤ upper ∧
        (a.randomPortInRange fuel lower upper protocol address w).1 = .ok (some port)) ∧
    ((∃ port w', lower ≤ port ∧ port ≤ upper ∧
        ComesTo (a.randomPortInRange · lower upper protocol address) w (.ok (some port)) w') ∨
      ∀ i, PortRange.pick? ⟨lower, upper⟩
        ((w.randomness.generator a.generator).word w.randomness.entropy i) = none) := by
  have husable : PortRange.Usable ⟨lower, upper⟩ :=
    PortRange.usable_of_one_le hpositive (UInt16.le_of_lt hlt)
  have hasked (port : UInt16) (hport : PortRange.contains ⟨lower, upper⟩ port = true) :
      (a.probe.isAvailable port protocol address w.toLogged).1 = .ok true :=
    hfree port (bounds_of_contains hport).1 (bounds_of_contains hport).2
  have hanswer := a.randomPortInRange_answer protocol address husable
  have hbudget : some (budget ⟨lower, upper⟩) ≠ some 0 := by
    have hwidth := UInt16.lt_iff_toNat_lt.mp hlt
    simp only [budget, drawsPerPort, ne_eq, Option.some.injEq]
    omega
  have hgiven (fuel : Nat) :
      (a.randomPortInRange fuel lower upper protocol address w).1 = .error .unfinished ∨
        ∃ port, lower ≤ port ∧ port ≤ upper ∧
          (a.randomPortInRange fuel lower upper protocol address w).1 = .ok (some port) := by
    rcases hanswer.given fuel w with hunfinished | ⟨ending, u, hends, hrun⟩
    · exact .inl hunfinished
    · obtain ⟨port, hcontains, rfl⟩ := hends.eq_first husable.lower_le hasked hbudget
      obtain ⟨hlower, hupper⟩ := bounds_of_contains hcontains
      exact .inr ⟨port, hlower, hupper, by rw [hrun]; rfl⟩
  refine ⟨hgiven, ?_⟩
  rcases (picksFirstFreeIn_of_usable husable w).answered with ⟨fuel, hfinished⟩ | hstuck
  · left
    rcases hgiven fuel with hunfinished | ⟨port, hlower, hupper, hrun⟩
    · exact absurd hunfinished hfinished
    · have hcomes := hanswer.settles hfinished
      rw [hrun] at hcomes
      exact ⟨port, _, hlower, hupper, hcomes⟩
  · -- no candidate is missed, so that it is the first to which the generator never comes
    right
    obtain ⟨ports, u, -, hmisses, hnone⟩ := hstuck
    obtain ⟨-, rfl⟩ := hmisses.eq_start husable.lower_le hasked
    have hnever : ¬∃ port r, u.randomness.Draws a.generator ⟨lower, upper⟩ port r := by
      simpa only [not_exists] using hnone
    rw [Randomness.exists_draws_iff] at hnever
    simpa only [not_exists, not_not] using hnever

/-- Of two ports that are free the first that is drawn is found. -/
theorem finds_port_of_free_pair :
    let a : Allocator Script := ⟨Script.probe, 0, ⟨1024, 65535⟩, ⟨1024, 65535⟩, none⟩
    let w : World Script :=
      { state := { free := [⟨30000, 30001⟩], failAt := none, host := {} }
        randomness := { entropy := .cycle [0xc0000000, 0] } }
    (1 : UInt16) ≤ 30000 ∧ (30000 : UInt16) < 30001 ∧
      (∀ port, 30000 ≤ port → port ≤ 30001 →
        (a.probe.isAvailable port .stream none w.toLogged).1 = .ok true) ∧
      ∃ port w', 30000 ≤ port ∧ port ≤ 30001 ∧
        ComesTo (a.randomPortInRange · 30000 30001 .stream none) w (.ok (some port)) w' := by
  intro a w
  have hpositive : (1 : UInt16) ≤ 30000 := by decide
  have hlt : (30000 : UInt16) < 30001 := by decide
  have hfree (port : UInt16) (hlower : 30000 ≤ port) (hupper : port ≤ 30001) :
      (a.probe.isAvailable port .stream none w.toLogged).1 = .ok true := by
    change Except.ok (w.state.isFree port) = .ok true
    simp [w, Script.isFree, PortRange.contains, hlower, hupper]
  rcases (finds_port_of_free_range hpositive hlt w hfree).2 with hfound | hrefused
  · exact ⟨hpositive, hlt, hfree, hfound⟩
  · exact absurd (hrefused 0) (by decide)

end

/-- In a range of a single port nothing is drawn and nothing is asked, so that none is found. -/
theorem randomPortInRange_single {port : UInt16} (hport : port ≠ 0) (fuel : Nat) (w : World σ) :
    a.randomPortInRange fuel port port protocol address w =
      (.ok none, w.note (.rangeExhausted ⟨port, port⟩ 0)) := by
  have hfault : PortRange.fault? ⟨port, port⟩ = none :=
    PortRange.fault?_eq_none_iff.mpr ⟨hport, UInt16.le_refl port⟩
  have hbudget : budget ⟨port, port⟩ = 0 := by simp [budget]
  simp only [randomPortInRange, hfault, hbudget]
  rfl

/-- So the only port of a range is not found, even by a probe that always finds it free. -/
theorem single_free_port_missed :
    let a : Allocator Unit := ⟨⟨fun _ _ _ => pure true, fun _ _ _ => pure none⟩, 0,
      ⟨1024, 65535⟩, ⟨1024, 65535⟩, none⟩
    let w : World Unit := { state := (), randomness := { entropy := .cycle [] } }
    (1 : UInt16) ≤ 30000 ∧ (30000 : UInt16) ≤ 30000 ∧
      (∀ port protocol address l, (a.probe.isAvailable port protocol address l).1 = .ok true) ∧
      (∀ fuel, (a.randomPortInRange fuel 30000 30000 .stream none w).1 = .ok none) ∧
      ¬∃ fuel port, (a.randomPortInRange fuel 30000 30000 .stream none w).1 = .ok (some port) := by
  intro a w
  have hnone (fuel : Nat) : (a.randomPortInRange fuel 30000 30000 .stream none w).1 = .ok none := by
    rw [a.randomPortInRange_single .stream none (by decide)]
  refine ⟨by decide, by decide, fun _ _ _ _ => rfl, hnone, ?_⟩
  rintro ⟨fuel, port, hfound⟩
  rw [hnone fuel] at hfound
  cases hfound

end Allocator

end PortWarden
