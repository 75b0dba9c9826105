import PortWarden.Config.Document
import PortWarden.Config.Environment
import PortWarden.Proofs.Chain
import PortWarden.Service

/-!
# Valid configurations

A check passes on a configuration exactly if it is valid. Whatever a configuration is read from, and
by whichever way a service is made, the check comes last, so neither ends with an invalid one.
-/

namespace PortWarden

/-- A range from which ports can be drawn: it starts above port 0, and its bounds are in order. -/
structure PortRange.Usable (r : PortRange) : Prop where
  /-- Port 0 is left out. -/
  lower_ne : r.lower ≠ 0
  /-- The bounds are in order. -/
  lower_le : r.lower ≤ r.upper

/-- A range has no fault exactly if it is usable. -/
theorem PortRange.fault?_eq_none_iff {r : PortRange} : r.fault? = none ↔ r.Usable := by
  unfold fault?
  constructor
  · intro hnone
    split at hnone
    · cases hnone
    · split at hnone
      · cases hnone
      · exact ⟨‹_›, UInt16.not_lt.mp ‹_›⟩
  · rintro ⟨hne, hle⟩
    rw [if_neg hne, if_neg (UInt16.not_lt.mpr hle)]

/-- A range whose bounds are in order is usable if it starts at port 1 or above. -/
theorem PortRange.usable_of_one_le {r : PortRange} (hpositive : 1 ≤ r.lower)
    (hle : r.lower ≤ r.upper) : r.Usable := by
  refine ⟨fun hzero => ?_, hle⟩
  rw [hzero] at hpositive
  exact absurd hpositive (by decide)

/-- Port 0 lies in no usable range. -/
theorem PortRange.Usable.ne_zero {r : PortRange} (hr : r.Usable) {port : UInt16}
    (hport : r.contains port = true) : port ≠ 0 := by
  rintro rfl
  simp only [contains, Bool.and_eq_true, decide_eq_true_eq] at hport
  exact hr.lower_ne (UInt16.le_antisymm hport.1 (UInt16.zero_le))

namespace Config

/-- A configuration with which a service can do its work. -/
structure Valid (c : Config) : Prop where
  /-- Ports can be drawn from the general range. -/
  range : c.range.Usable
  /-- Ports can be drawn from the membership range. -/
  membershipRange : c.membershipRange.Usable
  /-- The group, if there is one, is a multicast address. -/
  group : ∀ address ∈ c.group, address.isMulticast = true
  /-- There is time to wait for an answer. -/
  timeout : c.timeout ≠ 0
  /-- At least one attempt is allowed. -/
  attemptLimit : c.attemptLimit ≠ some 0

/-- Nothing is wrong with a configuration exactly if it is valid. -/
theorem fault?_eq_none_iff {c : Config} : c.fault? = none ↔ c.Valid := by
  have hgroup : c.group.filter (!·.isMulticast) = none ↔
      ∀ address ∈ c.group, address.isMulticast = true := by
    simp [Option.filter_eq_none_iff]
  simp only [fault?, Option.or_eq_none_iff, Option.map_eq_none_iff, PortRange.fault?_eq_none_iff,
    hgroup]
  constructor
  · rintro ⟨hrange, hmembership, hgroup, hrest⟩
    split at hrest
    · cases hrest
    · split at hrest
      · cases hrest
      · exact ⟨hrange, hmembership, hgroup, ‹_›, ‹_›⟩
  · rintro ⟨hrange, hmembership, hgroup, htimeout, hlimit⟩
    exact ⟨hrange, hmembership, hgroup, by rw [if_neg htimeout, if_neg hlimit]⟩

/-- The check passes valid configurations on as they are, and no others. -/
theorem check_eq_ok_iff {c d : Config} : c.check = .ok d ↔ d = c ∧ c.Valid := by
  rw [← fault?_eq_none_iff, check]
  cases c.fault? <;> simp [eq_comm]

/-- The check fails exactly for configurations that are not valid. -/
theorem exists_check_eq_error_iff {c : Config} :
    (∃ failure, c.check = .error failure) ↔ ¬c.Valid := by
  rw [← fault?_eq_none_iff, check]
  cases c.fault? <;> simp

/-- A file gives a valid configuration or none. -/
theorem valid_of_load {content : FileContent} {c : Config} (hload : load content = .ok c) :
    c.Valid := by
  unfold load at hload
  rcases htext : FileContent.text content with failure | text <;> rw [htext] at hload
  · cases hload
  · change ofText text = .ok c at hload
    unfold ofText at hload
    split at hload
    · cases hload
    · obtain ⟨rfl, hvalid⟩ := check_eq_ok_iff.mp hload
      exact hvalid

/-- An environment gives a valid configuration or none, whatever it is laid over. -/
theorem valid_of_overlay (base : Config) (env : Environment) :
    Answers (overlay base env) Valid := by
  refine .chain fun c => ?_
  intro w d w' hrun
  rcases hcheck : c.check with failure | e <;> rw [hcheck] at hrun <;> cases hrun
  obtain ⟨rfl, hvalid⟩ := check_eq_ok_iff.mp hcheck
  exact hvalid

end Config

namespace Service

/-- A service is made around a prober exactly for a valid configuration, which it then has. -/
theorem ofProber_eq_ok_iff {config : Config} {prober : Prober} {generator : GeneratorId}
    {s : Service} :
    ofProber config prober generator = .ok s ↔ s = ⟨config, prober, generator⟩ ∧ config.Valid := by
  unfold ofProber
  rcases hcheck : config.check with failure | d
  · have hinvalid : ¬config.Valid := fun hvalid => by
      rw [Config.check_eq_ok_iff.mpr ⟨rfl, hvalid⟩] at hcheck
      cases hcheck
    exact ⟨fun h => (by cases h), fun h => absurd h.2 hinvalid⟩
  · obtain ⟨rfl, hvalid⟩ := Config.check_eq_ok_iff.mp hcheck
    constructor
    · rintro ⟨⟩
      exact ⟨rfl, hvalid⟩
    · rintro ⟨rfl, -⟩
      rfl

/-- The service of the process is one that its configuration describes. -/
theorem ofProcess_answers {σ : Type} (config : Config) :
    Answers (ofProcess config : Allocating σ Service) fun s =>
      ∃ generator, ofGenerator config generator = .ok s := by
  intro w s w' hrun
  simp only [ofProcess] at hrun
  split at hrun
  · rename_i hmade
    cases hrun
    exact ⟨_, hmade⟩
  · cases hrun

end Service

end PortWarden
