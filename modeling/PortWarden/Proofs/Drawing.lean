import PortWarden.Proofs.Search

/-!
# What a search draws

A word of a generator stands for a port of the range, whatever the word is. The ports that a search
draws are listed in order: one for each question that it asks. A search counts them, never draws
more than its steps, and fails only as the drawing or a question does.
-/

namespace PortWarden

/-- A word that is not refused stands for a port of the range. -/
theorem PortRange.contains_of_pick? {r : PortRange} (horder : r.lower ≤ r.upper) {word : UInt32}
    {port : UInt16} (hpick : r.pick? word = some port) : r.contains port = true := by
  have hle : r.lower.toNat ≤ r.upper.toNat := UInt16.le_iff_toNat_le.mp horder
  have hupper : r.upper.toNat < 65536 := r.upper.toNat_lt
  have hcontains : r.lower.toNat ≤ port.toNat ∧ port.toNat ≤ r.upper.toNat := by
    simp only [pick?] at hpick
    split at hpick
    · -- A range of all numbers holds every port.
      rename_i hall
      have hport : port.toNat < 65536 := port.toNat_lt
      simp only [count] at hall
      omega
    · split at hpick
      · have hplace : word.toNat * r.count / wordCount < r.count := by
          refine Nat.div_lt_of_lt_mul (Nat.mul_lt_mul_of_pos_right word.toNat_lt ?_)
          simp [count]
        obtain rfl := Option.some.inj hpick
        rw [UInt16.toNat_add, UInt16.toNat_ofNat']
        generalize word.toNat * r.count / wordCount = place at hplace ⊢
        simp only [count] at hplace
        omega
      · cases hpick
  simpa [contains, UInt16.le_iff_toNat_le] using hcontains

/-- A generator picks ports of the range. -/
theorem Generator.pick_contains {r : PortRange} (horder : r.lower ≤ r.upper) (fuel : Nat)
    (g : Generator) (e : Entropy) :
    ∀ port ∈ (Generator.pick r fuel g e).1, r.contains port = true := by
  induction fuel generalizing g e with
  | zero => simp [pick]
  | succ fuel ih =>
    simp only [pick]
    rcases hpick : r.pick? (g.next e).1 with _ | port
    · exact ih _ _
    · rintro port' ⟨rfl⟩
      exact r.contains_of_pick? horder hpick

section

variable {σ : Type} {fuel : Nat} {generator : GeneratorId} {range : PortRange}

/-- What is drawn lies in the range. -/
theorem draw_answers : Answers (draw fuel generator range : Allocating σ UInt16)
    fun port => range.contains port = true := by
  intro w port w' hrun
  simp only [draw] at hrun
  split at hrun
  · cases hrun
  · rename_i horder
    have hpick := Generator.pick_contains (UInt16.not_lt.mp horder) fuel
      (w.randomness.generator generator) w.randomness.entropy
    simp only [Randomness.pick] at hrun
    rcases hport : (Generator.pick range fuel (w.randomness.generator generator)
      w.randomness.entropy).1 with _ | port' <;> rw [hport] at hrun hpick
    · cases hrun
    · cases hrun
      exact hpick _ rfl

/-- Drawing a port takes longer than it is watched, or the bounds of the range are inverted. -/
theorem draw_fails : Fails (draw fuel generator range : Allocating σ UInt16)
    fun stop => stop = .unfinished ∨ stop = .emptyRange ∧ range.upper < range.lower := by
  intro w stop w' hrun
  simp only [draw] at hrun
  split at hrun
  · rename_i hinverted
    cases hrun
    exact .inr ⟨rfl, hinverted⟩
  · rcases hpick : w.randomness.pick fuel generator range with ⟨_ | port, randomness⟩ <;>
      rw [hpick] at hrun <;> cases hrun
    exact .inl rfl

end

section

variable {σ α : Type}

/-- The ports that a search draws, in order. -/
def drawn (draw : Allocating σ UInt16) (test : UInt16 → Probing σ (Option α))
    (missed : UInt16 → Nat → World σ → World σ) : (steps attempts : Nat) → World σ → List UInt16
  | 0, _, _ => []
  | steps + 1, attempts, w =>
    match draw w with
    | (.error _, _) => []
    | (.ok port, w) =>
      match test port w.toLogged with
      | (.ok none, l) =>
        port :: drawn draw test missed steps (attempts + 1)
          (missed port (attempts + 1) { w with toLogged := l })
      | _ => [port]

variable {draw : Allocating σ UInt16} {test : UInt16 → Probing σ (Option α)}
  {missed : UInt16 → Nat → World σ → World σ}

/-- A search draws at most as many ports as it has steps. -/
theorem length_drawn_le (steps attempts : Nat) (w : World σ) :
    (drawn draw test missed steps attempts w).length ≤ steps := by
  induction steps generalizing attempts w with
  | zero => exact Nat.le_refl _
  | succ steps ih =>
    simp only [drawn]
    rcases draw w with ⟨stop | port, w₁⟩ <;> dsimp only
    · exact Nat.zero_le _
    · rcases test port w₁.toLogged with ⟨failure | _ | value, l⟩
      · exact Nat.le_add_left 1 steps
      · exact Nat.succ_le_succ (ih _ _)
      · exact Nat.le_add_left 1 steps

/-- What holds of every port that can be drawn holds of those that a search draws. -/
theorem holds_of_mem_drawn {holds : UInt16 → Prop} (hdraw : Answers draw holds)
    (steps attempts : Nat) (w : World σ) :
    ∀ port ∈ drawn draw test missed steps attempts w, holds port := by
  induction steps generalizing attempts w with
  | zero => simp [drawn]
  | succ steps ih =>
    simp only [drawn]
    rcases hrun : draw w with ⟨stop | port, w₁⟩ <;> dsimp only
    · simp
    · have hport : holds port := hdraw w port w₁ hrun
      rcases test port w₁.toLogged with ⟨failure | _ | value, l⟩
      · exact List.forall_mem_singleton.mpr hport
      · exact List.forall_mem_cons.mpr ⟨hport, ih _ _⟩
      · exact List.forall_mem_singleton.mpr hport

/-- A search that finds a port has drawn it last, and has counted the ports that it drew. -/
theorem drawn_of_found {steps attempts : Nat} {w w' : World σ} {found : Found α}
    (hrun : search draw test missed steps attempts w = (.ok (some found), w')) :
    (drawn draw test missed steps attempts w).getLast? = some found.port ∧
      found.attempts = attempts + (drawn draw test missed steps attempts w).length := by
  induction steps generalizing attempts w with
  | zero => cases hrun
  | succ steps ih =>
    simp only [search] at hrun
    simp only [drawn]
    rcases hdraw : draw w with ⟨stop | port, w₁⟩ <;> rw [hdraw] at hrun
    · cases hrun
    dsimp only at hrun ⊢
    rcases hask : test port w₁.toLogged with ⟨failure | _ | value, l⟩ <;> rw [hask] at hrun
    · cases hrun
    · obtain ⟨hlast, hcount⟩ := ih hrun
      refine ⟨by simp [List.getLast?_cons, hlast], ?_⟩
      rw [hcount, List.length_cons]
      omega
    · cases hrun
      exact ⟨rfl, rfl⟩

/-- A search that finds a port ends with the question about it. -/
theorem test_of_found {steps attempts : Nat} {w w' : World σ} {found : Found α}
    (hrun : search draw test missed steps attempts w = (.ok (some found), w')) :
    ∃ l, test found.port l = (.ok (some found.value), w'.toLogged) := by
  induction steps generalizing attempts w with
  | zero => cases hrun
  | succ steps ih =>
    simp only [search] at hrun
    rcases hdraw : draw w with ⟨stop | port, w₁⟩ <;> rw [hdraw] at hrun
    · cases hrun
    dsimp only at hrun
    rcases hask : test port w₁.toLogged with ⟨failure | _ | value, l⟩ <;> rw [hask] at hrun
    · cases hrun
    · exact ih hrun
    · cases hrun
      exact ⟨w₁.toLogged, hask⟩

/-- A search that finds nothing has drawn as many ports as it had steps. -/
theorem length_drawn_of_none {steps attempts : Nat} {w w' : World σ}
    (hrun : search draw test missed steps attempts w = (.ok none, w')) :
    (drawn draw test missed steps attempts w).length = steps := by
  induction steps generalizing attempts w with
  | zero => rfl
  | succ steps ih =>
    simp only [search] at hrun
    simp only [drawn]
    rcases hdraw : draw w with ⟨stop | port, w₁⟩ <;> rw [hdraw] at hrun
    · cases hrun
    dsimp only at hrun ⊢
    rcases hask : test port w₁.toLogged with ⟨failure | _ | value, l⟩ <;> rw [hask] at hrun
    · cases hrun
    · exact congrArg (· + 1) (ih hrun)
    · cases hrun

/-- What a search would do about a missed port at a count beyond its steps makes no difference. -/
theorem search_congr_missed {missed' : UInt16 → Nat → World σ → World σ} {steps attempts : Nat}
    (hmissed : ∀ port count w, count ≤ attempts + steps →
      missed' port count w = missed port count w) (w : World σ) :
    search draw test missed' steps attempts w = search draw test missed steps attempts w := by
  induction steps generalizing attempts w with
  | zero => rfl
  | succ steps ih =>
    have hrest (w : World σ) : search draw test missed' steps (attempts + 1) w =
        search draw test missed steps (attempts + 1) w :=
      ih (fun port count w hcount => hmissed port count w (by omega)) w
    simp only [search]
    rcases draw w with ⟨stop | port, w₁⟩ <;> dsimp only
    rcases test port w₁.toLogged with ⟨failure | _ | value, l⟩ <;> dsimp only
    rw [hmissed port (attempts + 1) _ (by omega), hrest]

/-- A search fails as drawing a port or a question about one does. -/
theorem search_fails {holds : Stop → Prop} (hdraw : Fails draw holds)
    (htest : ∀ port, Fails (test port) fun failure => holds (.failure failure))
    (steps attempts : Nat) :
    Fails (search draw test missed steps attempts : Allocating σ (Option (Found α))) holds := by
  induction steps generalizing attempts with
  | zero =>
    intro w stop w' hrun
    cases hrun
  | succ steps ih =>
    intro w stop w' hrun
    simp only [search] at hrun
    rcases hfirst : draw w with ⟨_ | port, w₁⟩ <;> rw [hfirst] at hrun
    · cases hrun
      exact hdraw w stop w' hfirst
    dsimp only at hrun
    rcases hask : test port w₁.toLogged with ⟨failure | _ | value, l⟩ <;> rw [hask] at hrun
    · cases hrun
      exact htest port _ failure l hask
    · exact ih (attempts + 1) _ stop w' hrun
    · cases hrun

end

namespace Allocator

variable {σ α : Type} (a : Allocator σ) (fuel : Nat) (membership : Bool)

/-- How many steps a search within the limit has: the limit, and without one as many as it is
watched. -/
def steps : Nat :=
  match a.attemptLimit with
  | some limit => limit.toNat
  | none => fuel

/-- How a search within the limit ends when its steps are used up. -/
def outOfSteps : Stop :=
  match a.attemptLimit with
  | some limit => .failure (.exhausted limit.toNat)
  | none => .unfinished

/-- A search within the limit is a search with its steps. -/
theorem searchWithinLimit_apply (test : UInt16 → Probing σ (Option α))
    (missed : UInt16 → Nat → World σ → World σ) (w : World σ) :
    a.searchWithinLimit fuel membership test missed w =
      match search (draw fuel a.generator (a.rangeFor membership)) test missed (a.steps fuel) 0
        w with
      | (.ok (some found), w) => (.ok found, w)
      | (.ok none, w) => (.error a.outOfSteps, w)
      | (.error stop, w) => (.error stop, w) := by
  simp only [searchWithinLimit, steps, outOfSteps]
  cases a.attemptLimit with
  | some limit =>
    dsimp only
    rw [chain_apply]
    rcases search (draw fuel a.generator (a.rangeFor membership)) test missed limit.toNat 0 w with
      ⟨stop | _ | found, w'⟩ <;> rfl
  | none =>
    dsimp only
    rw [chain_apply]
    rcases search (draw fuel a.generator (a.rangeFor membership)) test missed fuel 0 w with
      ⟨stop | _ | found, w'⟩ <;> rfl

/-- A search within the limit finds what the search with its steps finds. -/
theorem search_of_searchWithinLimit {test : UInt16 → Probing σ (Option α)}
    {missed : UInt16 → Nat → World σ → World σ} {w w' : World σ} {found : Found α}
    (hrun : a.searchWithinLimit fuel membership test missed w = (.ok found, w')) :
    search (draw fuel a.generator (a.rangeFor membership)) test missed (a.steps fuel) 0 w =
      (.ok (some found), w') := by
  rw [searchWithinLimit_apply] at hrun
  rcases hsearch : search (draw fuel a.generator (a.rangeFor membership)) test missed (a.steps fuel)
    0 w with ⟨stop | _ | found', v⟩ <;> rw [hsearch] at hrun <;> cases hrun
  rfl

/-- A search within the limit that finds a port ends with the question about it. -/
theorem searchWithinLimit_ok {test : UInt16 → Probing σ (Option α)}
    {missed : UInt16 → Nat → World σ → World σ} {w w' : World σ} {found : Found α}
    (hrun : a.searchWithinLimit fuel membership test missed w = (.ok found, w')) :
    ∃ l, test found.port l = (.ok (some found.value), w'.toLogged) :=
  test_of_found (a.search_of_searchWithinLimit fuel membership hrun)

/-- A search within the limit fails as drawing or a question does, or for want of steps. -/
theorem searchWithinLimit_fails {test : UInt16 → Probing σ (Option α)}
    {missed : UInt16 → Nat → World σ → World σ} {holds : Stop → Prop}
    (hdraw : Fails (draw fuel a.generator (a.rangeFor membership) : Allocating σ UInt16) holds)
    (htest : ∀ port, Fails (test port) fun failure => holds (.failure failure))
    (hout : holds a.outOfSteps) :
    Fails (a.searchWithinLimit fuel membership test missed) holds := by
  intro w stop w' hrun
  rw [searchWithinLimit_apply] at hrun
  rcases hsearch : search (draw fuel a.generator (a.rangeFor membership)) test missed (a.steps fuel)
    0 w with ⟨_ | _ | found, v⟩ <;> rw [hsearch] at hrun <;> cases hrun
  · exact search_fails hdraw htest _ _ _ _ _ hsearch
  · exact hout

section

variable {address : Option Address} {protocol : Protocol} {holds : Stop → Prop}

/-- Checking a port in a search fails as checking it does. -/
theorem check_fails {holds : Failure → Prop} {port : UInt16}
    (hprobe : Fails (a.probe.isAvailable port protocol address) holds) :
    Fails (a.check protocol address port) holds := by
  refine hprobe.chain fun free => ?_
  cases free <;> exact .pure _

/-- The search for a free port fails as drawing or a check does, or for want of steps. -/
theorem randomPort_fails
    (hdraw : Fails (draw fuel a.generator (a.rangeFor membership) : Allocating σ UInt16) holds)
    (hcheck : ∀ port, Fails (a.probe.isAvailable port protocol address)
      fun failure => holds (.failure failure))
    (hout : holds a.outOfSteps) : Fails (a.randomPort fuel protocol address membership) holds :=
  (a.searchWithinLimit_fails fuel membership hdraw (fun port => a.check_fails (hcheck port))
    hout).chain fun found => (Fails.modify _).chain fun _ => .pure found.port

/-- The search for a keeper fails as drawing or a claim does, or for want of steps. -/
theorem randomKeeper_fails
    (hdraw : Fails (draw fuel a.generator (a.rangeFor membership) : Allocating σ UInt16) holds)
    (hclaim : ∀ port, Fails (a.probe.keep port protocol address)
      fun failure => holds (.failure failure))
    (hout : holds a.outOfSteps) : Fails (a.randomKeeper fuel protocol address membership) holds :=
  (a.searchWithinLimit_fails fuel membership hdraw hclaim hout).chain fun found =>
    (Fails.modify _).chain fun _ => .pure found.value

/-- The search in a given range fails as drawing or a check does, if the range has no fault. -/
theorem randomPortInRange_fails {lower upper : UInt16}
    (hrange : ∀ fault, PortRange.fault? ⟨lower, upper⟩ = some fault →
      holds (.failure (.invalidArgument (.range fault))))
    (hdraw : PortRange.fault? ⟨lower, upper⟩ = none →
      Fails (draw fuel a.generator ⟨lower, upper⟩ : Allocating σ UInt16) holds)
    (hcheck : ∀ port, Fails (a.probe.isAvailable port protocol address)
      fun failure => holds (.failure failure)) :
    Fails (a.randomPortInRange fuel lower upper protocol address) holds := by
  simp only [randomPortInRange]
  cases hfault : PortRange.fault? ⟨lower, upper⟩ with
  | some fault =>
    intro w stop w' hrun
    cases hrun
    exact hrange fault hfault
  | none =>
    have hsearch : Fails (search (draw fuel a.generator ⟨lower, upper⟩) (a.check protocol address)
        (fun _ _ w => w) (budget ⟨lower, upper⟩) 0 : Allocating σ (Option (Found Unit))) holds :=
      search_fails (hdraw hfault) (fun port => a.check_fails (hcheck port)) _ 0
    refine hsearch.chain fun found => ?_
    cases found <;> exact (Fails.modify _).chain fun _ => .pure _

end

/-- The ports that a search within the limit draws. -/
def drawnWithinLimit (test : UInt16 → Probing σ (Option α))
    (missed : UInt16 → Nat → World σ → World σ) (w : World σ) : List UInt16 :=
  drawn (draw fuel a.generator (a.rangeFor membership)) test missed (a.steps fuel) 0 w

section

variable {test : UInt16 → Probing σ (Option α)} {missed : UInt16 → Nat → World σ → World σ}
  {limit : UInt64}

/-- A limited search draws no more ports than the limit. -/
theorem length_drawnWithinLimit_le (hlimit : a.attemptLimit = some limit) (w : World σ) :
    (a.drawnWithinLimit fuel membership test missed w).length ≤ limit.toNat := by
  have hsteps : a.steps fuel = limit.toNat := by simp [steps, hlimit]
  exact hsteps ▸ length_drawn_le (a.steps fuel) 0 w

/-- A search within the limit that finds a port has drawn it last, and has counted the ports that it
drew. -/
theorem drawnWithinLimit_of_ok {w w' : World σ} {found : Found α}
    (hrun : a.searchWithinLimit fuel membership test missed w = (.ok found, w')) :
    (a.drawnWithinLimit fuel membership test missed w).getLast? = some found.port ∧
      found.attempts = (a.drawnWithinLimit fuel membership test missed w).length := by
  obtain ⟨hlast, hcount⟩ := drawn_of_found (a.search_of_searchWithinLimit fuel membership hrun)
  exact ⟨hlast, hcount.trans (Nat.zero_add _)⟩

/-- If no question tells of used up attempts, a search that does has drawn as many ports as it
tells. -/
theorem length_drawnWithinLimit_of_exhausted {w w' : World σ} {attempts : Nat}
    (htest : ∀ port, Fails (test port) (· ≠ .exhausted attempts))
    (hrun : a.searchWithinLimit fuel membership test missed w =
      (.error (.failure (.exhausted attempts)), w')) :
    (a.drawnWithinLimit fuel membership test missed w).length = attempts := by
  rw [searchWithinLimit_apply] at hrun
  rcases hsearch : search (draw fuel a.generator (a.rangeFor membership)) test missed (a.steps fuel)
    0 w with ⟨stop | _ | found, v⟩ <;> rw [hsearch] at hrun
  · obtain rfl : stop = .failure (.exhausted attempts) := Except.error.inj (Prod.mk.inj hrun).1
    have hnot : Fails (search (draw fuel a.generator (a.rangeFor membership)) test missed
        (a.steps fuel) 0 : Allocating σ (Option (Found α)))
        (· ≠ .failure (.exhausted attempts)) := by
      refine search_fails (fun w stop w' hdraw => ?_) (fun port l failure l' hask => ?_) _ _
      · rcases draw_fails w stop w' hdraw with rfl | ⟨rfl, -⟩ <;> simp
      · simpa using htest port l failure l' hask
    exact absurd rfl (hnot w _ v hsearch)
  · have hout : a.outOfSteps = .failure (.exhausted attempts) :=
      Except.error.inj (Prod.mk.inj hrun).1
    have hlength := length_drawn_of_none hsearch
    unfold outOfSteps at hout
    unfold drawnWithinLimit
    cases hlimit : a.attemptLimit with
    | some limit =>
      obtain rfl : limit.toNat = attempts := by simpa [hlimit] using hout
      rw [hlength]
      simp [steps, hlimit]
    | none => simp [hlimit] at hout
  · cases hrun

/-- A limited search finds a port at a count of no more than the limit. -/
theorem searchWithinLimit_attempts_le (hlimit : a.attemptLimit = some limit) :
    Answers (a.searchWithinLimit fuel membership test missed) (·.attempts ≤ limit.toNat) := by
  intro w found w' hrun
  rw [(a.drawnWithinLimit_of_ok fuel membership hrun).2]
  exact a.length_drawnWithinLimit_le fuel membership hlimit w

/-- What a limited search would do at a count beyond the limit makes no difference. -/
theorem searchWithinLimit_congr_missed (hlimit : a.attemptLimit = some limit)
    {missed' : UInt16 → Nat → World σ → World σ}
    (hmissed : ∀ port count w, count ≤ limit.toNat →
      missed' port count w = missed port count w) :
    a.searchWithinLimit fuel membership test missed' =
      a.searchWithinLimit fuel membership test missed := by
  have hsteps : 0 + a.steps fuel = limit.toNat := by simp [steps, hlimit]
  funext w
  rw [searchWithinLimit_apply, searchWithinLimit_apply,
    search_congr_missed (fun port count w hcount => hmissed port count w (hsteps ▸ hcount))]

end

/-- The ports that the search for a free port draws. -/
def drawnForPort (protocol : Protocol) (address : Option Address) : World σ → List UInt16 :=
  a.drawnWithinLimit fuel membership (a.check protocol address)
    fun port attempts w => w.note (.candidateInUse port attempts)

/-- The ports that the search for a keeper draws. -/
def drawnForKeeper (protocol : Protocol) (address : Option Address) : World σ → List UInt16 :=
  a.drawnWithinLimit fuel membership (a.probe.keep · protocol address) fun _ _ w => w

/-- The ports that the search in a given range draws, which is none if the range is unusable. -/
def drawnInRange (range : PortRange) (protocol : Protocol) (address : Option Address)
    (w : World σ) : List UInt16 :=
  match range.fault? with
  | some _ => []
  | none =>
    drawn (draw fuel a.generator range) (a.check protocol address) (fun _ _ w => w) (budget range) 0
      w

end Allocator

end PortWarden
