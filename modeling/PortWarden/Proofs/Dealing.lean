import PortWarden.Proofs.Candidates
import PortWarden.Proofs.Guarding

/-!
# Ports dealt from one stream of words

A port that is drawn takes words of its generator up to the first that is not refused, and the next
port goes on behind that, from whatever range it is drawn. So the ports that are drawn with one
generator are dealt from one stream of words, of which none is used twice. A question to a service
deals the ports that it draws in this way.
-/

namespace PortWarden

/-- Ports dealt from a stream of words, each with the range from which it is drawn. They use up the
words from one place up to another. -/
inductive Dealt (word : Nat → UInt32) : Nat → List (PortRange × UInt16) → Nat → Prop
  /-- No port is dealt, and no word used. -/
  | nothing (place : Nat) : Dealt word place [] place
  /-- The first word that is not refused decides on a port. The next one goes on behind it. -/
  | next {place n stop : Nat} {range : PortRange} {port : UInt16}
      {rest : List (PortRange × UInt16)} :
      (∀ i < n, range.pick? (word (place + i)) = none) →
      range.pick? (word (place + n)) = some port →
      Dealt word (place + n + 1) rest stop → Dealt word place ((range, port) :: rest) stop

namespace Generator

/-- Words are taken one part after the other. -/
theorem skip_add (a b : Nat) (g : Generator) (e : Entropy) :
    g.skip (a + b) e = (g.skip a e).1.skip b (g.skip a e).2 := by
  induction a generalizing g e with
  | zero => rw [Nat.zero_add, skip]
  | succ a ih =>
    rw [Nat.add_right_comm]
    exact ih _ _

/-- The words that are left are those behind the ones that were taken. -/
theorem word_skip (a i : Nat) (g : Generator) (e : Entropy) :
    (g.skip a e).1.word (g.skip a e).2 i = g.word e (a + i) := by
  simp only [word, skip_add]

end Generator

namespace Randomness

variable {r r' m : Randomness} {id : GeneratorId} {range : PortRange} {port : UInt16}
  {draws more : List (PortRange × UInt16)}

/-- A generator that is put under a handle is found under it. -/
theorem generator_set (hid : id < r.generators.length) (g : Generator) (e : Entropy) :
    ({ r with entropy := e, generators := r.generators.set id g } : Randomness).generator id =
      g := by
  simp [generator, hid]

/-- The ports that are drawn one after the other with the generator of a handle, each with its
range, and the random state that is left. -/
inductive Deals (id : GeneratorId) : Randomness → List (PortRange × UInt16) → Randomness → Prop
  /-- Nothing is drawn. -/
  | nothing (r : Randomness) : Deals id r [] r
  /-- One port is drawn, and then the others. -/
  | next {r m r' : Randomness} {range : PortRange} {port : UInt16}
      {rest : List (PortRange × UInt16)} :
      r.Draws id range port m → Deals id m rest r' → Deals id r ((range, port) :: rest) r'

/-- One port is drawn. -/
theorem Draws.deals (hdraws : r.Draws id range port m) : r.Deals id [(range, port)] m :=
  .next hdraws (.nothing m)

/-- Where the random state is the same, nothing was drawn. -/
theorem Deals.of_eq (hsame : r' = r) : r.Deals id [] r' := by
  rw [hsame]
  exact .nothing r

/-- Ports are drawn one part after the other. -/
theorem Deals.append (hdeals : r.Deals id draws m) (hmore : m.Deals id more r') :
    r.Deals id (draws ++ more) r' := by
  induction hdeals with
  | nothing => exact hmore
  | next hdraws _ ih => exact .next hdraws (ih hmore)

/-- To draw a port is to take words up to the first that is not refused, and to keep what is left of
the generator. -/
theorem Draws.words (hdraws : r.Draws id range port m) :
    ∃ n, (∀ i < n, range.pick? ((r.generator id).word r.entropy i) = none) ∧
      range.pick? ((r.generator id).word r.entropy n) = some port ∧
      m = { r with
        entropy := ((r.generator id).skip (n + 1) r.entropy).2
        generators := r.generators.set id ((r.generator id).skip (n + 1) r.entropy).1 } := by
  obtain ⟨fuel, hpick⟩ := hdraws
  simp only [pick] at hpick
  rcases hrun : Generator.pick range fuel (r.generator id) r.entropy with ⟨_ | port', g, e⟩ <;>
    rw [hrun] at hpick <;> cases hpick
  obtain ⟨n, -, hrefused, htaken, hskip⟩ := Generator.pick_eq_some_iff.mp hrun
  exact ⟨n, hrefused, htaken, by rw [hskip]⟩

/-- Drawing makes no generators, and leaves open which is the one of the process. -/
theorem Deals.keeps (hdeals : r.Deals id draws r') :
    r'.generators.length = r.generators.length ∧ r'.shared = r.shared := by
  induction hdeals with
  | nothing => exact ⟨rfl, rfl⟩
  | next hdraws _ ih =>
    obtain ⟨n, -, -, rfl⟩ := hdraws.words
    exact ⟨ih.1.trans List.length_set, ih.2⟩

/-- The ports that are drawn with a generator are dealt from the words of the one that it was, from
the place on that it has reached. -/
theorem Deals.dealt {g : Generator} {e : Entropy} {place : Nat} (hdeals : r.Deals id draws r')
    (hid : id < r.generators.length) (hplace : g.skip place e = (r.generator id, r.entropy)) :
    ∃ stop, Dealt (g.word e) place draws stop ∧
      g.skip stop e = (r'.generator id, r'.entropy) := by
  induction hdeals generalizing place with
  | nothing => exact ⟨place, .nothing place, hplace⟩
  | @next r m r' range port rest hdraws _ ih =>
    obtain ⟨n, hrefused, htaken, hleft⟩ := hdraws.words
    have hword (i : Nat) : (r.generator id).word r.entropy i = g.word e (place + i) := by
      rw [← Generator.word_skip, hplace]
    have hnext : g.skip (place + n + 1) e = (m.generator id, m.entropy) := by
      rw [Nat.add_assoc, Generator.skip_add, hplace, hleft, generator_set hid]
    have hstored : id < m.generators.length := by
      rwa [hleft, List.length_set]
    obtain ⟨stop, hrest, hstop⟩ := ih hstored hnext
    simp only [hword] at hrefused htaken
    exact ⟨stop, .next hrefused htaken hrest, hstop⟩

end Randomness

section

variable {σ α β : Type} {id : GeneratorId} {dealt : World σ → List (PortRange × UInt16)}

/-- A question that, watched to its end, draws ports with the generator of a handle and does nothing
else to the random state. -/
def DealsWith (id : GeneratorId) (dealt : World σ → List (PortRange × UInt16))
    (question : Allocating σ α) : Prop :=
  ∀ w, (question w).1 ≠ .error .unfinished →
    w.randomness.Deals id (dealt w) (question w).2.randomness

/-- What comes after the ports are drawn leaves the random state alone. -/
theorem DealsWith.chain {x : Allocating σ α} {f : α → Allocating σ β} (hx : DealsWith id dealt x)
    (hf : ∀ a w, (f a w).2.randomness = w.randomness) : DealsWith id dealt (x >>= f) := by
  intro w hends
  have hfirst := hx w
  rw [chain_apply] at hends ⊢
  rcases hrun : x w with ⟨stop | a, m⟩ <;> rw [hrun] at hends hfirst
  · exact hfirst fun hstop => hends (congrArg Except.error (Except.error.inj hstop))
  · dsimp only
    rw [hf]
    exact hfirst (by simp)

/-- A question that a probe answers draws nothing. -/
theorem Probing.onWorld_deals (question : Probing σ α) :
    DealsWith id (fun _ => []) question.onWorld := by
  intro w _
  refine .of_eq ?_
  simp only [onWorld]
  rcases question w.toLogged with ⟨failure | a, l⟩ <;> rfl

variable {fuel : Nat} {range : PortRange} {test : UInt16 → Probing σ (Option α)}
  {missed : UInt16 → Nat → World σ → World σ}

/-- Drawing a port from a range draws that port. -/
theorem draw_deals (fuel : Nat) (id : GeneratorId) (range : PortRange) :
    DealsWith id (fun w => (draw fuel id range w).1.toOption.toList.map (range, ·))
      (draw fuel id range : Allocating σ UInt16) := by
  intro w hends
  simp only [draw] at hends ⊢
  split
  · exact .nothing _
  · rename_i horder
    rw [if_neg horder] at hends
    rcases hpick : w.randomness.pick fuel id range with ⟨_ | port, r⟩ <;> rw [hpick] at hends
    · exact absurd rfl hends
    · exact Randomness.Draws.deals ⟨fuel, hpick⟩

section

variable (hmissed : ∀ port attempts w, (missed port attempts w).randomness = w.randomness)
include hmissed

/-- A search draws its candidates. -/
theorem search_deals (steps attempts : Nat) :
    DealsWith id
      (fun w => (drawn (draw fuel id range) test missed steps attempts w).map (range, ·))
      (search (draw fuel id range) test missed steps attempts :
        Allocating σ (Option (Found α))) := by
  induction steps generalizing attempts with
  | zero => exact fun w _ => .nothing _
  | succ steps ih =>
    intro w hends
    have hdraw := draw_deals fuel id range w
    beta_reduce at hdraw
    simp only [search, drawn] at hends ⊢
    rcases hfirst : draw fuel id range w with ⟨stop | port, w₁⟩ <;> rw [hfirst] at hends hdraw
    · exact hdraw fun hstop => hends (congrArg Except.error (Except.error.inj hstop))
    have hport : w.randomness.Deals id [(range, port)] w₁.randomness := hdraw (by simp)
    dsimp only at hends ⊢
    rcases hask : test port w₁.toLogged with ⟨failure | _ | value, l⟩ <;> rw [hask] at hends
    · exact hport
    · have hrest := ih (attempts + 1) _ hends
      rw [hmissed] at hrest
      exact hport.append hrest
    · exact hport

/-- So does a search within the limit. -/
theorem Allocator.searchWithinLimit_deals (a : Allocator σ) (membership : Bool) :
    DealsWith a.generator
      (fun w => (a.drawnWithinLimit fuel membership test missed w).map (a.rangeFor membership, ·))
      (a.searchWithinLimit fuel membership test missed) := by
  unfold drawnWithinLimit searchWithinLimit steps
  cases a.attemptLimit with
  | some limit =>
    exact (search_deals hmissed limit.toNat 0).chain fun found w => by cases found <;> rfl
  | none => exact (search_deals hmissed fuel 0).chain fun found w => by cases found <;> rfl

end

namespace Allocator

variable (a : Allocator σ) (protocol : Protocol) (address : Option Address)

/-- The search for a free port draws its candidates. -/
theorem randomPort_deals (membership : Bool) :
    DealsWith a.generator
      (fun w => (a.drawnForPort fuel membership protocol address w).map (a.rangeFor membership, ·))
      (a.randomPort fuel protocol address membership) := by
  refine (a.searchWithinLimit_deals ?_ membership).chain fun _ _ => rfl
  exact fun _ _ _ => rfl

/-- The search for a keeper draws its candidates. -/
theorem randomKeeper_deals (membership : Bool) :
    DealsWith a.generator
      (fun w =>
        (a.drawnForKeeper fuel membership protocol address w).map (a.rangeFor membership, ·))
      (a.randomKeeper fuel protocol address membership) :=
  (a.searchWithinLimit_deals (fun _ _ _ => rfl) membership).chain fun _ _ => rfl

/-- The search in a given range draws its candidates, which are none if the range is unusable. -/
theorem randomPortInRange_deals (lower upper : UInt16) :
    DealsWith a.generator
      (fun w => (a.drawnInRange fuel ⟨lower, upper⟩ protocol address w).map (⟨lower, upper⟩, ·))
      (a.randomPortInRange fuel lower upper protocol address) := by
  simp only [drawnInRange, randomPortInRange]
  cases PortRange.fault? ⟨lower, upper⟩ with
  | some fault => exact fun w _ => .nothing _
  | none =>
    exact (search_deals (fun _ _ _ => rfl) _ 0).chain fun found w => by cases found <;> rfl

end Allocator

end

namespace Service

variable (s : Service)

/-- The ports that a request draws, in order, each with the range from which it is drawn. -/
def deals (fuel : Nat) (request : Request) (w : World Host) : List (PortRange × UInt16) :=
  match s.drawsFrom request with
  | some range => (s.candidates fuel w request).map (range, ·)
  | none => []

end Service

namespace Session

variable {s : Session}

/-- Dropping a keeper leaves the random state alone. -/
theorem randomness_dropKeeper (name : String) :
    (s.dropKeeper name).world.randomness = s.world.randomness := by
  unfold dropKeeper
  cases s.keepers.lookup name <;> rfl

/-- Closing a listener leaves the random state alone. -/
theorem randomness_dropListener (name : String) :
    (s.dropListener name).world.randomness = s.world.randomness := by
  unfold dropListener
  cases s.listeners.lookup name <;> rfl

/-- A question to the service draws what it draws, whatever becomes of its answer. -/
theorem ask_deals {α : Type} {id : GeneratorId} {dealt : World Host → List (PortRange × UInt16)}
    {question : Allocating Host α} {reply : α → Session → Reply × Session}
    (hquestion : DealsWith id dealt question)
    (hreply : ∀ a t, (reply a t).2.world.randomness = t.world.randomness)
    (hends : (s.ask question reply).1 ≠ .stopped .unfinished) :
    s.world.randomness.Deals id (dealt s.world)
      (s.ask question reply).2.world.randomness := by
  have hasked := hquestion s.world
  simp only [ask] at hends ⊢
  rcases hrun : question s.world with ⟨stop | a, world⟩ <;> rw [hrun] at hends hasked
  · exact hasked fun hstop => hends (by cases hstop; rfl)
  · dsimp only
    rw [hreply]
    exact hasked (by simp)

/-- A step of a session that is watched to its end draws the ports of its request, with the
generator of its service. -/
theorem step_deals (s : Session) (fuel : Nat) (request : Request)
    (hends : (s.step fuel request).1 ≠ .stopped .unfinished) :
    s.world.randomness.Deals s.service.generator (s.service.deals fuel request s.world)
      (s.step fuel request).2.world.randomness := by
  have hstore (name : String) (keeper : Keeper) (t : Session) :
      (t.storeKeeper name keeper).world.randomness = t.world.randomness :=
    randomness_dropKeeper name
  cases request with
  | available | availableByDefault =>
    exact ask_deals (Probing.onWorld_deals _) (fun _ _ => rfl) hends
  | random protocol address membership =>
    exact ask_deals (s.service.allocator.randomPort_deals protocol address membership)
      (fun _ _ => rfl) hends
  | randomByDefault protocol =>
    exact ask_deals (s.service.allocator.randomPort_deals protocol _ false) (fun _ _ => rfl) hends
  | randomInRange lower upper protocol =>
    exact ask_deals (s.service.allocator.randomPortInRange_deals protocol _ lower upper)
      (fun _ _ => rfl) hends
  | keep name =>
    refine ask_deals (Probing.onWorld_deals _) (fun kept t => ?_) hends
    cases kept with
    | none => rfl
    | some keeper => exact hstore name keeper t
  | keepRandom name protocol address membership =>
    exact ask_deals (s.service.allocator.randomKeeper_deals protocol address membership)
      (fun keeper t => hstore name keeper t) hends
  | release name | inspect name =>
    refine .of_eq ?_
    simp only [step]
    cases s.keepers.lookup name <;> rfl
  | drop name => exact .of_eq ((randomness_dropListener name).trans (randomness_dropKeeper name))
  | takeListener name =>
    refine .of_eq ?_
    simp only [step]
    cases s.keepers.lookup name with
    | none => rfl
    | some keeper =>
      dsimp only
      cases keeper.socket with
      | none => rfl
      | some id => exact randomness_dropListener name
  | foreignListens | foreignStops => exact .of_eq rfl

end Session

end PortWarden
