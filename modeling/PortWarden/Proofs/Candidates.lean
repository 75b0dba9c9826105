import PortWarden.Proofs.Uniformity

/-!
# Candidates

A search draws its candidates one after the other and asks about each. A candidate that is in use is
missed, and the search goes on; any other decides it. So how a search ends can be said without the
search: by the candidates that a generator draws and by the answers about them. A search that is
watched for long enough comes to this end, and to no other.
-/

namespace PortWarden

/-- The port that is drawn next, and the random state that is left. -/
def Randomness.Draws (r : Randomness) (id : GeneratorId) (range : PortRange) (port : UInt16)
    (r' : Randomness) : Prop :=
  ∃ fuel, r.pick fuel id range = (some port, r')

/-- The ports that are drawn next, one after the other, and the random state that is left. -/
inductive Randomness.Yields (r : Randomness) (id : GeneratorId) (range : PortRange) :
    List UInt16 → Randomness → Prop
  | start : r.Yields id range [] r
  | next {ports : List UInt16} {port : UInt16} {r' r'' : Randomness} :
      r.Yields id range ports r' → r'.Draws id range port r'' →
      r.Yields id range (ports ++ [port]) r''

/-- A draw that has come to a port does not depend on how long it is watched. -/
theorem Randomness.pick_mono {r r' : Randomness} {id : GeneratorId} {range : PortRange}
    {port : UInt16} {fuel more : Nat} (hmore : fuel ≤ more)
    (hpick : r.pick fuel id range = (some port, r')) : r.pick more id range = (some port, r') := by
  have hsame : Generator.pick range more (r.generator id) r.entropy =
      Generator.pick range fuel (r.generator id) r.entropy := by
    rcases hrun : Generator.pick range fuel (r.generator id) r.entropy with ⟨_ | port', g, e⟩
    · simp [pick, hrun] at hpick
    · obtain ⟨n, hn, hrest⟩ := Generator.pick_eq_some_iff.mp hrun
      exact Generator.pick_eq_some_iff.mpr ⟨n, Nat.lt_of_lt_of_le hn hmore, hrest⟩
  rw [← hpick, pick, pick, hsame]

/-- There is at most one port to be drawn next. -/
theorem Randomness.Draws.unique {r r' r'' : Randomness} {id : GeneratorId} {range : PortRange}
    {port port' : UInt16} (hdraws : r.Draws id range port r')
    (hother : r.Draws id range port' r'') : port = port' ∧ r' = r'' := by
  obtain ⟨fuel, hpick⟩ := hdraws
  obtain ⟨more, hother⟩ := hother
  have hsame : (some port, r') = (some port', r'') := by
    rw [← pick_mono (Nat.le_max_left fuel more) hpick,
      ← pick_mono (Nat.le_max_right fuel more) hother]
  cases hsame
  exact ⟨rfl, rfl⟩

/-- So the ports that are drawn next are determined by their number. -/
theorem Randomness.Yields.unique {r r' r'' : Randomness} {id : GeneratorId} {range : PortRange}
    {ports ports' : List UInt16} (hyields : r.Yields id range ports r')
    (hother : r.Yields id range ports' r'') (hlength : ports.length = ports'.length) :
    ports = ports' ∧ r' = r'' := by
  induction hyields generalizing ports' r'' with
  | start =>
    cases hother with
    | start => exact ⟨rfl, rfl⟩
    | next => simp at hlength
  | next _ hdraws ih =>
    cases hother with
    | start => simp at hlength
    | next hother hdraws' =>
      obtain ⟨rfl, rfl⟩ := ih hother (by simpa using hlength)
      obtain ⟨rfl, rfl⟩ := hdraws.unique hdraws'
      exact ⟨rfl, rfl⟩

/-- There is a port to be drawn next exactly if one of the words of the generator is not refused. -/
theorem Randomness.exists_draws_iff {r : Randomness} {id : GeneratorId} {range : PortRange} :
    (∃ port r', r.Draws id range port r') ↔
      ∃ i, range.pick? ((r.generator id).word r.entropy i) ≠ none := by
  constructor
  · rintro ⟨port, r', fuel, hpick⟩
    by_contra hrefused
    simp only [not_exists, not_not] at hrefused
    have hnone : (r.pick fuel id range).1 = none :=
      Generator.pick_fst_eq_none_iff.mpr fun i _ => hrefused i
    rw [hpick] at hnone
    cases hnone
  · rintro ⟨i, htaken⟩
    rcases hpick : r.pick (i + 1) id range with ⟨_ | port, r'⟩
    · have hnone : (Generator.pick range (i + 1) (r.generator id) r.entropy).1 = none :=
        congrArg Prod.fst hpick
      exact absurd (Generator.pick_fst_eq_none_iff.mp hnone i (Nat.lt_succ_self i)) htaken
    · exact ⟨port, r', i + 1, hpick⟩

section

variable {σ : Type}

/-- What a search comes to when it is watched for long enough. -/
def ComesTo {α : Type} (search : Nat → Allocating σ α) (w : World σ) (result : Except Stop α)
    (w' : World σ) : Prop :=
  ∃ enough, ∀ fuel, enough ≤ fuel → search fuel w = (result, w')

/-- Drawing from a range whose bounds are in order gives the port that is drawn next, unless it
takes longer than it is watched. -/
theorem draw_cases {id : GeneratorId} {range : PortRange} (horder : range.lower ≤ range.upper)
    (fuel : Nat) (w : World σ) :
    (∃ w', draw fuel id range w = (.error .unfinished, w')) ∨
      ∃ port r, w.randomness.pick fuel id range = (some port, r) ∧
        draw fuel id range w = (.ok port, { w with randomness := r }) := by
  simp only [draw, if_neg (UInt16.not_lt.mpr horder)]
  rcases w.randomness.pick fuel id range with ⟨_ | port, r⟩
  · exact .inl ⟨_, rfl⟩
  · exact .inr ⟨port, r, rfl, rfl⟩

/-- The port that is drawn next is drawn by everyone who watches for long enough. -/
theorem draw_of_draws {id : GeneratorId} {range : PortRange} (horder : range.lower ≤ range.upper)
    {w : World σ} {port : UInt16} {r : Randomness} (hdraws : w.randomness.Draws id range port r) :
    ∃ enough, ∀ fuel, enough ≤ fuel →
      draw fuel id range w = (.ok port, { w with randomness := r }) := by
  obtain ⟨enough, hpick⟩ := hdraws
  refine ⟨enough, fun fuel hfuel => ?_⟩
  simp only [draw, if_neg (UInt16.not_lt.mpr horder), Randomness.pick_mono hfuel hpick]

/-- Where candidates come from, and what becomes of them. -/
structure Candidates (σ : Type) where
  /-- The generator that draws them. -/
  generator : GeneratorId
  /-- The range from which they are drawn. -/
  range : PortRange
  /-- The question that is asked about each. -/
  isAvailable : UInt16 → Probing σ Bool
  /-- What is reported about one that is in use, and was drawn at a certain count. -/
  missed : UInt16 → Nat → Logged σ → Logged σ

namespace Candidates

/-- The ports that were drawn one after the other, of which each was in use when it was asked
about. -/
inductive Misses (c : Candidates σ) (w : World σ) : List UInt16 → World σ → Prop
  | start : c.Misses w [] w
  | next {ports : List UInt16} {port : UInt16} {u : World σ} {r : Randomness} {l : Logged σ} :
      c.Misses w ports u → u.randomness.Draws c.generator c.range port r →
      c.isAvailable port u.toLogged = (.ok false, l) →
      c.Misses w (ports ++ [port]) ⟨c.missed port (ports.length + 1) l, r⟩

/-- The port that was drawn after others that were in use, and the answer about it. -/
def Tries (c : Candidates σ) (w : World σ) (ports : List UInt16) (port : UInt16)
    (answer : Except Failure Bool) (w' : World σ) : Prop :=
  ∃ u r l, c.Misses w ports u ∧ u.randomness.Draws c.generator c.range port r ∧
    c.isAvailable port u.toLogged = (answer, l) ∧ w' = ⟨l, r⟩

/-- How a search ends that may draw so many candidates, or as many as it likes. -/
inductive Ends (c : Candidates σ) (most : Option Nat) (w : World σ) :
    Except Failure (Option (Found Unit)) → World σ → Prop
  /-- A candidate is free. -/
  | found {ports : List UInt16} {port : UInt16} {w' : World σ} :
      (∀ n ∈ most, ports.length + 1 ≤ n) → c.Tries w ports port (.ok true) w' →
      c.Ends most w (.ok (some ⟨port, (), ports.length + 1⟩)) w'
  /-- The question about a candidate fails. -/
  | failed {ports : List UInt16} {port : UInt16} {failure : Failure} {w' : World σ} :
      (∀ n ∈ most, ports.length + 1 ≤ n) → c.Tries w ports port (.error failure) w' →
      c.Ends most w (.error failure) w'
  /-- All candidates that may be drawn are in use. -/
  | usedUp {ports : List UInt16} {w' : World σ} :
      most = some ports.length → c.Misses w ports w' → c.Ends most w (.ok none) w'

/-- The search among the candidates. -/
def search (c : Candidates σ) (fuel steps attempts : Nat) : Allocating σ (Option (Found Unit)) :=
  PortWarden.search (draw fuel c.generator c.range)
    (fun port => do if ← c.isAvailable port then return some () else return none)
    (fun port count w => ⟨c.missed port count w.toLogged, w.randomness⟩) steps attempts

variable {c : Candidates σ} {w : World σ}

/-- A step of the search draws a candidate and asks about it. -/
theorem search_succ (c : Candidates σ) (fuel steps attempts : Nat) (w : World σ) :
    c.search fuel (steps + 1) attempts w =
      match draw fuel c.generator c.range w with
      | (.error stop, u) => (.error stop, u)
      | (.ok port, u) =>
        match c.isAvailable port u.toLogged with
        | (.error failure, l) => (.error (.failure failure), ⟨l, u.randomness⟩)
        | (.ok true, l) => (.ok (some ⟨port, (), attempts + 1⟩), ⟨l, u.randomness⟩)
        | (.ok false, l) =>
          c.search fuel steps (attempts + 1) ⟨c.missed port (attempts + 1) l, u.randomness⟩ := by
  rw [search, PortWarden.search]
  rcases draw fuel c.generator c.range w with ⟨stop | port, u⟩
  · rfl
  dsimp only
  rw [chain_apply]
  rcases c.isAvailable port u.toLogged with ⟨failure | _ | _, l⟩ <;> rfl

/-- Candidates that were missed are those that the generator yields, whatever was asked about
them. -/
theorem Misses.yields {ports : List UInt16} {u : World σ} (hmisses : c.Misses w ports u) :
    w.randomness.Yields c.generator c.range ports u.randomness := by
  induction hmisses with
  | start => exact .start
  | next _ hdraws _ ih => exact .next ih hdraws

/-- A candidate that decides is the one that the generator yields after them. -/
theorem Tries.yields {ports : List UInt16} {port : UInt16} {answer : Except Failure Bool}
    {u : World σ} (htries : c.Tries w ports port answer u) :
    w.randomness.Yields c.generator c.range (ports ++ [port]) u.randomness := by
  obtain ⟨_, r, l, hmisses, hdraws, -, rfl⟩ := htries
  exact .next hmisses.yields hdraws

section

variable (horder : c.range.lower ≤ c.range.upper)
include horder

/-- A search that is not watched to its end is unfinished. Any other ends as its candidates say. -/
theorem ends_of_search {fuel steps : Nat} {ports : List UInt16} {u w' : World σ}
    {result : Except Stop (Option (Found Unit))} (hmisses : c.Misses w ports u)
    (hrun : c.search fuel steps ports.length u = (result, w')) :
    result = .error .unfinished ∨
      ∃ ending, result = ending.mapError .failure ∧
        c.Ends (some (ports.length + steps)) w ending w' := by
  -- each step adds to the candidates that were missed before it, or decides
  induction steps generalizing ports u with
  | zero =>
    cases hrun
    exact .inr ⟨_, rfl, .usedUp rfl hmisses⟩
  | succ steps ih =>
    have hroom : ∀ n ∈ some (ports.length + (steps + 1)), ports.length + 1 ≤ n := by
      rintro n ⟨rfl⟩
      omega
    rw [search_succ] at hrun
    rcases draw_cases horder fuel u with ⟨u', hdraw⟩ | ⟨port, r, hpick, hdraw⟩ <;>
      rw [hdraw] at hrun
    · cases hrun
      exact .inl rfl
    dsimp only at hrun
    rcases hask : c.isAvailable port u.toLogged with ⟨failure | _ | _, l⟩ <;> rw [hask] at hrun
    · cases hrun
      exact .inr ⟨_, rfl, .failed hroom ⟨u, r, l, hmisses, ⟨fuel, hpick⟩, hask, rfl⟩⟩
    · have hnext := hmisses.next ⟨fuel, hpick⟩ hask
      have hrest := ih hnext (by rw [List.length_append]; exact hrun)
      rwa [List.length_append, List.length_singleton, Nat.add_assoc, Nat.add_comm 1] at hrest
    · cases hrun
      exact .inr ⟨_, rfl, .found hroom ⟨u, r, l, hmisses, ⟨fuel, hpick⟩, hask, rfl⟩⟩

/-- A search that is watched for long enough goes on where its candidates have brought it. -/
theorem search_of_misses {ports : List UInt16} {u : World σ} (hmisses : c.Misses w ports u) :
    ∃ enough, ∀ fuel, enough ≤ fuel → ∀ steps,
      c.search fuel (ports.length + steps) 0 w = c.search fuel steps ports.length u := by
  induction hmisses with
  | start => exact ⟨0, fun fuel _ steps => by rw [List.length_nil, Nat.zero_add]⟩
  | @next ports port u r l _ hdraws hask ih =>
    obtain ⟨before, hbefore⟩ := ih
    obtain ⟨enough, hdraw⟩ := draw_of_draws horder hdraws
    refine ⟨max before enough, fun fuel hfuel steps => ?_⟩
    rw [List.length_append, List.length_singleton, Nat.add_assoc, Nat.add_comm 1,
      hbefore fuel (by omega), search_succ, hdraw fuel (by omega)]
    dsimp only
    rw [hask]

/-- A search that is watched for long enough ends as its candidates say. -/
theorem search_of_ends {most : Option Nat} {ending : Except Failure (Option (Found Unit))}
    {w' : World σ} (hends : c.Ends most w ending w') :
    ∃ enough, ∀ fuel, enough ≤ fuel → ∀ steps, (most = some steps ∨ most = none ∧ enough ≤ steps) →
      c.search fuel steps 0 w = (ending.mapError .failure, w') := by
  -- a candidate that decides is reached as soon as there are steps for those before it
  have hdecided {ports : List UInt16} {port : UInt16} {answer : Except Failure Bool} {w' : World σ}
      (hroom : ∀ n ∈ most, ports.length + 1 ≤ n) (htries : c.Tries w ports port answer w')
      (hanswer : answer ≠ .ok false) : ∃ enough, ∀ fuel, enough ≤ fuel → ∀ steps,
        (most = some steps ∨ most = none ∧ enough ≤ steps) →
          c.search fuel steps 0 w =
            ((answer.map fun _ => some ⟨port, (), ports.length + 1⟩).mapError .failure, w') := by
    obtain ⟨u, r, l, hmisses, hdraws, hask, rfl⟩ := htries
    obtain ⟨before, hbefore⟩ := search_of_misses horder hmisses
    obtain ⟨enough, hdraw⟩ := draw_of_draws horder hdraws
    refine ⟨max (ports.length + 1) (max before enough), fun fuel hfuel steps hsteps => ?_⟩
    obtain ⟨rest, rfl⟩ : ∃ rest, steps = ports.length + (rest + 1) := by
      have hle : ports.length + 1 ≤ steps := by
        rcases hsteps with hsteps | ⟨-, hsteps⟩
        · exact hroom steps hsteps
        · omega
      exact ⟨steps - (ports.length + 1), by omega⟩
    rw [hbefore fuel (by omega), search_succ, hdraw fuel (by omega)]
    dsimp only
    rw [hask]
    rcases answer with failure | _ | _
    · rfl
    · exact absurd rfl hanswer
    · rfl
  cases hends with
  | found hroom htries => exact hdecided hroom htries (by simp)
  | failed hroom htries => exact hdecided hroom htries (by simp)
  | @usedUp ports _ hmost hmisses =>
    obtain ⟨enough, hsearch⟩ := search_of_misses horder hmisses
    refine ⟨enough, fun fuel hfuel steps hsteps => ?_⟩
    obtain rfl : ports.length = steps := by simpa [hmost] using hsteps
    exact hsearch fuel hfuel 0

/-- What is drawn lies in the range. -/
theorem contains_of_draws {r r' : Randomness} {port : UInt16}
    (hdraws : r.Draws c.generator c.range port r') : c.range.contains port = true := by
  obtain ⟨fuel, hpick⟩ := hdraws
  exact Generator.pick_contains horder _ _ _ _ (congrArg Prod.fst hpick)

/-- Every candidate that was missed lies in the range. -/
theorem Misses.contains {ports : List UInt16} {u : World σ} (hmisses : c.Misses w ports u) :
    ∀ port ∈ ports, c.range.contains port = true := by
  induction hmisses with
  | start => simp
  | next _ hdraws _ ih =>
    exact List.forall_mem_append.mpr
      ⟨ih, List.forall_mem_singleton.mpr (contains_of_draws horder hdraws)⟩

/-- So does a candidate that decides. -/
theorem Tries.contains {ports : List UInt16} {port : UInt16} {answer : Except Failure Bool}
    {u : World σ} (htries : c.Tries w ports port answer u) :
    ∀ candidate ∈ ports ++ [port], c.range.contains candidate = true := by
  obtain ⟨_, _, _, hmisses, hdraws, -, -⟩ := htries
  exact List.forall_mem_append.mpr
    ⟨hmisses.contains horder, List.forall_mem_singleton.mpr (contains_of_draws horder hdraws)⟩

section

variable (hfree : ∀ port, c.range.contains port = true →
  (c.isAvailable port w.toLogged).1 = .ok true)
include hfree

/-- Of a range that is free no candidate is missed. -/
theorem Misses.eq_start {ports : List UInt16} {u : World σ} (hmisses : c.Misses w ports u) :
    ports = [] ∧ u = w := by
  induction hmisses with
  | start => exact ⟨rfl, rfl⟩
  | next _ hdraws hask ih =>
    obtain ⟨-, rfl⟩ := ih
    have hanswer := hfree _ (contains_of_draws horder hdraws)
    rw [hask] at hanswer
    cases hanswer

/-- So the first candidate decides, if any may be drawn. -/
theorem Ends.eq_first {most : Option Nat} (hmost : most ≠ some 0)
    {ending : Except Failure (Option (Found Unit))} {w' : World σ}
    (hends : c.Ends most w ending w') :
    ∃ port, c.range.contains port = true ∧ ending = .ok (some ⟨port, (), 1⟩) := by
  cases hends with
  | found _ htries =>
    obtain ⟨u, r, l, hmisses, hdraws, -, -⟩ := htries
    obtain ⟨rfl, -⟩ := hmisses.eq_start horder hfree
    exact ⟨_, contains_of_draws horder hdraws, rfl⟩
  | failed _ htries =>
    obtain ⟨u, r, l, hmisses, hdraws, hask, -⟩ := htries
    obtain ⟨-, rfl⟩ := hmisses.eq_start horder hfree
    have hanswer := hfree _ (contains_of_draws horder hdraws)
    rw [hask] at hanswer
    cases hanswer
  | usedUp hnone hmisses =>
    obtain ⟨rfl, -⟩ := hmisses.eq_start horder hfree
    exact absurd hnone hmost

end

end

/-- Among so many candidates all are in use, or there is one that decides, unless the generator
never comes to the next. -/
theorem decided_or_stuck (c : Candidates σ) (w : World σ) (n : Nat) :
    (∃ ending u, c.Ends (some n) w ending u) ∨
      ∃ ports u, ports.length < n ∧ c.Misses w ports u ∧
        ∀ port r, ¬u.randomness.Draws c.generator c.range port r := by
  -- if so many are in use, the next is drawn and asked about; what was decided before stays so
  induction n with
  | zero => exact .inl ⟨_, w, .usedUp rfl .start⟩
  | succ n ih =>
    have hroom {k : Nat} (hk : k + 1 ≤ n + 1) : ∀ m ∈ some (n + 1), k + 1 ≤ m := by
      rintro m ⟨rfl⟩
      exact hk
    rcases ih with ⟨ending, u, hends⟩ | ⟨ports, u, hlength, hstuck⟩
    · cases hends with
      | found hfew htries =>
        exact .inl ⟨_, _, .found (hroom (Nat.le_succ_of_le (hfew n rfl))) htries⟩
      | failed hfew htries =>
        exact .inl ⟨_, _, .failed (hroom (Nat.le_succ_of_le (hfew n rfl))) htries⟩
      | @usedUp ports _ hmost hmisses =>
        obtain rfl : n = ports.length := Option.some.inj hmost
        by_cases hdraws : ∃ port r, u.randomness.Draws c.generator c.range port r
        · obtain ⟨port, r, hdraws⟩ := hdraws
          have htries {answer : Except Failure Bool} {l : Logged σ}
              (hask : c.isAvailable port u.toLogged = (answer, l)) :
              c.Tries w ports port answer ⟨l, r⟩ := ⟨u, r, l, hmisses, hdraws, hask, rfl⟩
          rcases hask : c.isAvailable port u.toLogged with ⟨failure | _ | _, l⟩
          · exact .inl ⟨_, _, .failed (hroom (Nat.le_refl _)) (htries hask)⟩
          · exact .inl ⟨_, _, .usedUp (by simp) (hmisses.next hdraws hask)⟩
          · exact .inl ⟨_, _, .found (hroom (Nat.le_refl _)) (htries hask)⟩
        · exact .inr ⟨ports, u, Nat.lt_succ_self _, hmisses, fun port r h => hdraws ⟨port, r, h⟩⟩
    · exact .inr ⟨ports, u, Nat.lt_succ_of_lt hlength, hstuck⟩

section

variable {α : Type}

/-- What is answered when a search has ended: a failure as it is, any other end as it is
reported. -/
def answerTo (report : Option (Found Unit) → Allocating σ α) :
    Except Failure (Option (Found Unit)) → Allocating σ α
  | .ok found => report found
  | .error failure => throw (.failure failure)

/-- A question that is answered by a search among candidates: among so many, or among as many as it
likes. -/
structure Answer (c : Candidates σ) (most : Option Nat)
    (report : Option (Found Unit) → Allocating σ α) (question : Nat → Allocating σ α) : Prop where
  /-- The end of the search is answered, if it is watched until then. -/
  given : ∀ fuel w, (question fuel w).1 = .error .unfinished ∨
    ∃ ending u, c.Ends most w ending u ∧ question fuel w = answerTo report ending u
  /-- The search comes to an end if the candidates do. -/
  comes : ∀ {w ending u}, c.Ends most w ending u →
    ComesTo question w (answerTo report ending u).1 (answerTo report ending u).2

variable {most : Option Nat} {report : Option (Found Unit) → Allocating σ α}
  {question : Nat → Allocating σ α}

/-- A search among as many candidates as it likes has as many steps as it is watched, and is
unfinished when they are used up. -/
theorem answer_of_search (horder : c.range.lower ≤ c.range.upper) (steps : Nat → Nat)
    (hquestion : ∀ fuel, question fuel = c.search fuel (steps fuel) 0 >>= report)
    (hsteps : (∀ fuel, most = some (steps fuel)) ∨
      most = none ∧ (∀ fuel, steps fuel = fuel) ∧ ∀ u, (report none u).1 = .error .unfinished) :
    c.Answer most report question := by
  have hanswer {fuel : Nat} {w u : World σ} {ending : Except Failure (Option (Found Unit))}
      (hsearch : c.search fuel (steps fuel) 0 w = (ending.mapError .failure, u)) :
      question fuel w = answerTo report ending u := by
    rw [hquestion, chain_apply, hsearch]
    cases ending <;> rfl
  constructor
  case given =>
    intro fuel w
    rcases hrun : c.search fuel (steps fuel) 0 w with ⟨result, u⟩
    rcases ends_of_search horder .start hrun with rfl | ⟨ending, rfl, hends⟩
    · left
      rw [hquestion, chain_apply, hrun]
    rw [List.length_nil, Nat.zero_add] at hends
    rcases hsteps with hlimited | ⟨rfl, -, hunfinished⟩
    · rw [← hlimited] at hends
      exact .inr ⟨ending, u, hends, hanswer hrun⟩
    · cases hends with
      | found _ htries => exact .inr ⟨_, u, .found (by simp) htries, hanswer hrun⟩
      | failed _ htries => exact .inr ⟨_, u, .failed (by simp) htries, hanswer hrun⟩
      | usedUp => exact .inl ((congrArg Prod.fst (hanswer hrun)).trans (hunfinished u))
  case comes =>
    intro w ending u hends
    obtain ⟨enough, hsearch⟩ := search_of_ends horder hends
    refine ⟨enough, fun fuel hfuel => hanswer (hsearch fuel hfuel (steps fuel) ?_)⟩
    rcases hsteps with hlimited | ⟨hnone, hsame, -⟩
    · exact .inl (hlimited fuel)
    · exact .inr ⟨hnone, by rwa [hsame]⟩

namespace Answer

variable (hanswer : c.Answer most report question)
include hanswer

/-- There is an answer at some time if the candidates come to an end of which one is given. -/
theorem finishes {ending : Except Failure (Option (Found Unit))} {u : World σ}
    (hends : c.Ends most w ending u)
    (hreport : (answerTo report ending u).1 ≠ .error .unfinished) :
    ∃ fuel, (question fuel w).1 ≠ .error .unfinished := by
  obtain ⟨enough, hcomes⟩ := hanswer.comes hends
  refine ⟨enough, ?_⟩
  rwa [hcomes enough (Nat.le_refl enough)]

/-- An answer that is given at some time stays the answer. -/
theorem settles {fuel : Nat} (hfinished : (question fuel w).1 ≠ .error .unfinished) :
    ComesTo question w (question fuel w).1 (question fuel w).2 := by
  rcases hanswer.given fuel w with hunfinished | ⟨ending, u, hends, hrun⟩
  · exact absurd hunfinished hfinished
  · rw [hrun]
    exact hanswer.comes hends

/-- The question comes to what is answered to the end of its search. -/
theorem comesTo_iff {result : Except Stop α} {w' : World σ}
    (hresult : result ≠ .error .unfinished) :
    ComesTo question w result w' ↔
      ∃ ending u, c.Ends most w ending u ∧ answerTo report ending u = (result, w') := by
  constructor
  · rintro ⟨enough, hcomes⟩
    have hrun := hcomes enough (Nat.le_refl enough)
    rcases hanswer.given enough w with hunfinished | ⟨ending, u, hends, hreport⟩
    · rw [hrun] at hunfinished
      exact absurd hunfinished hresult
    · exact ⟨ending, u, hends, hreport.symm.trans hrun⟩
  · rintro ⟨ending, u, hends, hreport⟩
    have hcomes := hanswer.comes hends
    rwa [hreport] at hcomes

end Answer

end

end Candidates

end

end PortWarden
