import PortWarden.Proofs.Drawing
import PortWarden.Proofs.Surfacing

/-!
# Two searches in step

The search for a free port and the search for a keeper ask different questions. But a check does
what the claim of the same port does and then gives it back, and neither looks at the events
reported before. So from the same state both searches draw the same ports, make the same calls and
end in the same way; all that differs is the socket that the keeper holds.
-/

namespace PortWarden

/-- The host after a keeper is dropped, if there is one. -/
def Host.afterDrop (h : Host) (kept : Option Keeper) : Host :=
  match kept.bind (·.socket) with
  | none => h
  | some id => h.close id

/-- Dropping a keeper makes one call if the keeper has a socket. -/
theorem Host.calls_afterDrop (h : Host) (kept : Option Keeper) :
    (h.afterDrop kept).calls =
      h.calls ++ (kept.bind (·.socket)).toList.map (Call.on · .close) := by
  simp only [afterDrop]
  cases kept.bind (·.socket) with
  | none => simp
  | some id => exact calls_close h id

/-- A question whose answer and whose effect on the host do not depend on the events reported
before. -/
def IgnoresEvents {α : Type} (question : Probing Host α) : Prop :=
  ∀ w w' : Logged Host, w.state = w'.state →
    (question w).1 = (question w').1 ∧ (question w).2.state = (question w').2.state

namespace IgnoresEvents

variable {α β : Type}

/-- An answer that is known beforehand depends on nothing. -/
theorem pure (a : α) : IgnoresEvents (pure a) := fun _ _ hsame => ⟨rfl, hsame⟩

/-- Reporting one more event depends on nothing. -/
theorem note (event : Event) :
    IgnoresEvents (modify (·.note event) : Probing Host Unit) := fun _ _ hsame => ⟨rfl, hsame⟩

/-- A chain of questions depends on the events no more than they do. -/
theorem chain {x : Probing Host α} {f : α → Probing Host β} (hx : IgnoresEvents x)
    (hf : ∀ a, IgnoresEvents (f a)) : IgnoresEvents (x >>= f) := by
  intro w w' hsame
  obtain ⟨hanswer, hstate⟩ := hx w w' hsame
  rw [chain_apply, chain_apply]
  rcases hrun : x w with ⟨result, m⟩
  rcases hrun' : x w' with ⟨result', m'⟩
  rw [hrun, hrun'] at hanswer hstate
  obtain rfl : result = result' := hanswer
  cases result with
  | error failure => exact ⟨rfl, hstate⟩
  | ok a => exact hf a m m' hstate

end IgnoresEvents

/-- Finding out the interface addresses does not depend on the events. -/
theorem InterfaceSource.addresses_ignoresEvents (source : InterfaceSource) :
    IgnoresEvents source.addresses := by
  intro w w' hsame
  cases source with
  | fixed addresses => exact ⟨rfl, hsame⟩
  | system =>
    simp only [addresses, hsame]
    rcases Host.listInterfaces w'.state with ⟨errno | entries, m⟩ <;> exact ⟨rfl, rfl⟩

/-- A listener that was opened is among the open sockets. -/
theorem openListener_opens {target : Endpoint} {h h' : Host} {id : SocketId}
    (hrun : openListener target h = (.ok id, h')) : id ∈ h'.ids := by
  rw [openListener_apply, Host.create_apply] at hrun
  rcases hcreate : h.strike .create none with ⟨_ | errno, m⟩ <;> rw [hcreate] at hrun <;>
    dsimp only at hrun
  · have hwork := worksOn_listenOn (m.created + 1) target (m.withSocket target.family .stream)
    rcases hlisten : listenOn (m.created + 1) target (m.withSocket target.family .stream) with
      ⟨errno | _, m'⟩ <;> rw [hlisten] at hrun hwork <;> cases hrun
    rw [hwork.ids]
    exact .head _
  · cases hrun

namespace Prober

variable (p : Prober)

/-- A claim does not depend on the events. -/
theorem claim_ignoresEvents (target : Endpoint) : IgnoresEvents (p.claim target) := by
  intro w w' hsame
  obtain ⟨hstate, hanswer⟩ := p.claim_outcome target w
  obtain ⟨hstate', hanswer'⟩ := p.claim_outcome target w'
  rw [hanswer, hanswer', hstate, hstate', hsame]
  exact ⟨rfl, rfl⟩

/-- A check leaves the host that is left after the keeper of its claim is dropped. -/
theorem released_state (claim : Probing Host (Option Keeper)) (w : Logged Host) :
    (released claim w).2.state = (claim w).2.state.afterDrop (claim w).1.toOption.join := by
  simp only [released]
  rcases claim w with ⟨failure | _ | ⟨port, _ | id⟩, m⟩ <;> rfl

/-- A claim that is given back depends on the events no more than the claim. -/
theorem released_ignoresEvents {claim : Probing Host (Option Keeper)}
    (hclaim : IgnoresEvents claim) : IgnoresEvents (released claim) := by
  intro w w' hsame
  obtain ⟨hanswer, hstate⟩ := hclaim w w' hsame
  rw [released_fst, released_fst, released_state, released_state, hanswer, hstate]
  exact ⟨rfl, rfl⟩

/-- A check on interface addresses does not depend on the events. -/
theorem isFreeOnEach_ignoresEvents (port : UInt16) (is : List InterfaceAddress) :
    IgnoresEvents (p.isFreeOnEach port is) := by
  induction is with
  | nil => exact .pure true
  | cons i is ih =>
    refine (released_ignoresEvents (p.claim_ignoresEvents (i.endpoint port))).chain fun free => ?_
    cases free with
    | true => exact ih
    | false => exact (IgnoresEvents.note _).chain fun _ => .pure false

/-- A claim of a stream port does not depend on the events. -/
theorem claimStream_ignoresEvents (port : UInt16) (address : Option Address) :
    IgnoresEvents (p.claimStream port address) := by
  cases address with
  | some address => exact p.claim_ignoresEvents (address.endpoint port)
  | none =>
    have hwildcard := p.claim_ignoresEvents (Address.wildcard.endpoint port)
    refine (released_ignoresEvents hwildcard).chain fun free => ?_
    cases free with
    | false => exact .pure none
    | true =>
      refine p.interfaces.addresses_ignoresEvents.chain fun is => ?_
      refine (p.isFreeOnEach_ignoresEvents port is).chain fun free => ?_
      cases free with
      | false => exact .pure none
      | true => exact hwildcard

/-- A keeper that a claim gives has its socket open. -/
theorem claim_opens {target : Endpoint} {w w' : Logged Host} {keeper : Keeper}
    (hrun : p.claim target w = (.ok (some keeper), w')) :
    ∀ id ∈ keeper.socket, id ∈ w'.state.ids := by
  simp only [claim] at hrun
  rcases hopen : openListener target w.state with ⟨errno | id, m⟩ <;> rw [hopen] at hrun
  · dsimp only at hrun
    split at hrun
    · cases hrun
    · split at hrun <;> cases hrun
      simp
  · cases hrun
    rintro id' ⟨rfl⟩
    exact openListener_opens hopen

/-- A keeper that is given for a stream port has its socket open. -/
theorem claimStream_opens {port : UInt16} {address : Option Address} {w w' : Logged Host}
    {keeper : Keeper} (hrun : p.claimStream port address w = (.ok (some keeper), w')) :
    ∀ id ∈ keeper.socket, id ∈ w'.state.ids := by
  cases address with
  | some address => exact p.claim_opens hrun
  | none =>
    change p.claimEverywhere port w = _ at hrun
    rw [claimEverywhere_eq] at hrun
    obtain ⟨free, m, -, hrun⟩ := chain_ok hrun
    cases free with
    | false => cases hrun
    | true => exact p.claim_opens hrun

end Prober

/-- Drawing a port depends on the random state alone. -/
theorem draw_inStep (fuel : Nat) (generator : GeneratorId) (range : PortRange)
    {w w' : World Host} (hrandomness : w.randomness = w'.randomness) :
    (draw fuel generator range w).1 = (draw fuel generator range w').1 ∧
      (draw fuel generator range w).2.randomness = (draw fuel generator range w').2.randomness := by
  simp only [draw, ← hrandomness]
  split
  · exact ⟨rfl, hrandomness⟩
  · rcases w.randomness.pick fuel generator range with ⟨_ | port, randomness⟩ <;> exact ⟨rfl, rfl⟩

/-- What was found without what the probe gave for it. -/
def Found.bare {α : Type} (f : Found α) : Found Unit := { f with value := () }

section

variable {check : UInt16 → Probing Host (Option Unit)}
  {claim : UInt16 → Probing Host (Option Keeper)}

/-- If each check does what the claim of the same port does and gives it back, a search that checks
and a search that claims go in step. -/
theorem search_inStep (fuel : Nat) (generator : GeneratorId) (range : PortRange)
    (missed missed' : UInt16 → Nat → World Host → World Host)
    (hcheck : ∀ port (l l' : Logged Host), l.state = l'.state →
      (check port l).1 = (claim port l').1.map (·.map fun _ => ()) ∧
        (check port l).2.state = (claim port l').2.state.afterDrop (claim port l').1.toOption.join)
    (hmissed : ∀ port attempts w, (missed port attempts w).host = w.host ∧
      (missed port attempts w).randomness = w.randomness)
    (hmissed' : ∀ port attempts w, (missed' port attempts w).host = w.host ∧
      (missed' port attempts w).randomness = w.randomness)
    (steps attempts : Nat) {w w' : World Host} (hhost : w.host = w'.host)
    (hrandomness : w.randomness = w'.randomness) :
    let plain := search (draw fuel generator range) check missed steps attempts w
    let keeping := search (draw fuel generator range) claim missed' steps attempts w'
    drawn (draw fuel generator range) check missed steps attempts w =
        drawn (draw fuel generator range) claim missed' steps attempts w' ∧
      plain.1 = keeping.1.map (·.map Found.bare) ∧
      plain.2.randomness = keeping.2.randomness ∧
      plain.2.host = keeping.2.host.afterDrop (keeping.1.toOption.join.map (·.value)) := by
  intro plain keeping
  induction steps generalizing attempts w w' with
  | zero => exact ⟨rfl, rfl, hrandomness, hhost⟩
  | succ steps ih =>
    obtain ⟨hdrawn, hrandomness₁⟩ := draw_inStep fuel generator range hrandomness
    have hhost₁ : (draw fuel generator range w).2.host = (draw fuel generator range w').2.host := by
      rw [host_draw, host_draw, hhost]
    simp only [plain, keeping, search, drawn]
    rcases hdraw : draw fuel generator range w with ⟨result, w₁⟩
    rcases hdraw' : draw fuel generator range w' with ⟨result', w₁'⟩
    rw [hdraw, hdraw'] at hdrawn hrandomness₁ hhost₁
    obtain rfl : result = result' := hdrawn
    cases result with
    | error stop => exact ⟨rfl, rfl, hrandomness₁, hhost₁⟩
    | ok port =>
      obtain ⟨hanswer, hstate⟩ := hcheck port w₁.toLogged w₁'.toLogged hhost₁
      dsimp only at hrandomness₁ ⊢
      rcases hchecked : check port w₁.toLogged with ⟨checked, l⟩
      rcases hclaimed : claim port w₁'.toLogged with ⟨claimed, l'⟩
      rw [hchecked, hclaimed] at hanswer hstate
      obtain rfl : checked = claimed.map (·.map fun _ => ()) := hanswer
      rcases claimed with failure | _ | keeper
      · exact ⟨rfl, rfl, hrandomness₁, hstate⟩
      · -- The port is in use, so both searches go on, from states that differ in the events only.
        have hnext := hmissed port (attempts + 1) { w₁ with toLogged := l }
        have hnext' := hmissed' port (attempts + 1) { w₁' with toLogged := l' }
        have hrest := ih (attempts + 1) ((hnext.1.trans hstate).trans hnext'.1.symm)
          ((hnext.2.trans hrandomness₁).trans hnext'.2.symm)
        exact ⟨congrArg (port :: ·) hrest.1, hrest.2⟩
      · exact ⟨rfl, rfl, hrandomness₁, hstate⟩

end

/-- How the two questions that a probe answers about a stream port on an address fit together. -/
structure Probe.Paired (probe : Probe Host) (address : Option Address) : Prop where
  /-- A check does what a claim does and gives it back. -/
  checks : ∀ port (l l' : Logged Host), l.state = l'.state →
    (probe.isAvailable port .stream address l).1 =
        (probe.keep port .stream address l').1.map (·.isSome) ∧
      (probe.isAvailable port .stream address l).2.state =
        (probe.keep port .stream address l').2.state.afterDrop
          (probe.keep port .stream address l').1.toOption.join
  /-- A keeper is for the port claimed, and has its socket open. -/
  gives : ∀ port {l l' : Logged Host} {keeper : Keeper},
    probe.keep port .stream address l = (.ok (some keeper), l') →
      keeper.port = port ∧ ∀ id ∈ keeper.socket, id ∈ l'.state.ids
  /-- A claim fails only because of the host. -/
  fails : ∀ port, Fails (probe.keep port .stream address) (·.isHostFailure = true)

/-- The questions of a prober fit together. -/
theorem Prober.probe_paired (p : Prober) (address : Option Address) : p.probe.Paired address where
  checks port l l' hsame := by
    obtain ⟨hanswer, hstate⟩ :=
      released_ignoresEvents (p.claimStream_ignoresEvents port address) l l' hsame
    exact ⟨hanswer.trans (released_fst _ l'), hstate.trans (released_state _ l')⟩
  gives port _ _ keeper hrun :=
    ⟨(p.keep_answers port .stream address _ _ _ hrun keeper rfl).port, p.claimStream_opens hrun⟩
  fails port := p.claimStream_fails port address

namespace Allocator

section

variable {a : Allocator Host} {address : Option Address} (hprobe : a.probe.Paired address)
include hprobe

/-- So a check in a search does what a claim of the same port does and gives it back. -/
theorem check_inStep (port : UInt16) (l l' : Logged Host) (hsame : l.state = l'.state) :
    (a.check .stream address port l).1 =
        (a.probe.keep port .stream address l').1.map (·.map fun _ => ()) ∧
      (a.check .stream address port l).2.state =
        (a.probe.keep port .stream address l').2.state.afterDrop
          (a.probe.keep port .stream address l').1.toOption.join := by
  obtain ⟨hanswer, hstate⟩ := hprobe.checks port l l' hsame
  rw [check, chain_apply]
  rcases hrun : a.probe.isAvailable port .stream address l with ⟨result, m⟩
  rw [hrun] at hanswer hstate
  obtain rfl := hanswer
  rcases hclaim : (a.probe.keep port .stream address l').1 with failure | _ | keeper <;>
    rw [hclaim] at hstate <;> exact ⟨rfl, hstate⟩

/-- Within the limit, too, a search that checks and a search that claims go in step. -/
theorem searchWithinLimit_inStep (fuel : Nat) (membership : Bool) (w : World Host) :
    let plain := a.searchWithinLimit fuel membership (a.check .stream address)
      (fun port attempts w => w.note (.candidateInUse port attempts)) w
    let keeping := a.searchWithinLimit fuel membership (a.probe.keep · .stream address)
      (fun _ _ w => w) w
    a.drawnForPort fuel membership .stream address w =
        a.drawnForKeeper fuel membership .stream address w ∧
      plain.1 = keeping.1.map Found.bare ∧ plain.2.randomness = keeping.2.randomness ∧
      plain.2.host = keeping.2.host.afterDrop (keeping.1.toOption.map (·.value)) := by
  have hsearch := search_inStep fuel a.generator (a.rangeFor membership)
    (fun port attempts w => w.note (.candidateInUse port attempts)) (fun _ _ w => w)
    (check_inStep hprobe) (fun _ _ _ => ⟨rfl, rfl⟩) (fun _ _ _ => ⟨rfl, rfl⟩)
    (a.steps fuel) 0 (w := w) rfl rfl
  intro plain keeping
  obtain ⟨hdrawn, hanswer, hrandomness, hhost⟩ := hsearch
  refine ⟨hdrawn, ?_⟩
  simp only [plain, keeping, searchWithinLimit_apply]
  rcases hplain : search (draw fuel a.generator (a.rangeFor membership)) (a.check .stream address)
    (fun port attempts w => w.note (.candidateInUse port attempts)) (a.steps fuel) 0 w with
    ⟨result, v⟩
  rw [hplain] at hanswer hrandomness hhost
  obtain rfl := hanswer
  rcases hkeeping : search (draw fuel a.generator (a.rangeFor membership))
    (a.probe.keep · .stream address) (fun _ _ w => w) (a.steps fuel) 0 w with
    ⟨stop | _ | found, v'⟩ <;> rw [hkeeping] at hrandomness hhost <;>
    exact ⟨rfl, hrandomness, hhost⟩

end

/-- How the end of a search for a free port compares with the end of a search for one to keep. -/
structure EndAlike (plain : Except Stop UInt16 × World Host)
    (keeping : Except Stop Keeper × World Host) : Prop where
  /-- One gives a port exactly if the other gives a keeper of it. Otherwise both stop for the same
  reason, which may be that they were watched no longer. -/
  answer : plain.1 = keeping.1.map (·.port)
  /-- They leave the same random state. -/
  randomness : plain.2.randomness = keeping.2.randomness
  /-- They leave the same host, once the keeper is dropped. -/
  host : plain.2.host = keeping.2.host.afterDrop keeping.1.toOption
  /-- The socket that the keeper holds is open. -/
  held : ∀ keeper, keeping.1 = .ok keeper → ∀ id ∈ keeper.socket, id ∈ keeping.2.host.ids

/-- How the search for a free stream port compares with the search for one to keep, from the same
state. -/
structure InStep (a : Allocator Host) (fuel : Nat) (address : Option Address) (membership : Bool)
    (w : World Host) : Prop
    extends EndAlike (a.randomPort fuel .stream address membership w)
      (a.randomKeeper fuel .stream address membership w) where
  /-- They draw the same ports. -/
  drawn : a.drawnForPort fuel membership .stream address w =
    a.drawnForKeeper fuel membership .stream address w
  /-- The port that is kept was drawn last. -/
  found : ∀ keeper, (a.randomKeeper fuel .stream address membership w).1 = .ok keeper →
    (a.drawnForKeeper fuel membership .stream address w).getLast? = some keeper.port
  /-- If the attempts are used up, as many ports were drawn as the failure tells. -/
  exhausted : ∀ attempts,
    (a.randomKeeper fuel .stream address membership w).1 =
        .error (.failure (.exhausted attempts)) →
      (a.drawnForKeeper fuel membership .stream address w).length = attempts
  /-- They make the same calls in the same order, but for the close of the keeper's socket. -/
  calls : (a.randomPort fuel .stream address membership w).2.host.calls =
    (a.randomKeeper fuel .stream address membership w).2.host.calls ++
      ((a.randomKeeper fuel .stream address membership w).1.toOption.bind
        (·.socket)).toList.map (Call.on · .close)
  /-- They fail only because of the host or because the attempts are used up. -/
  failures : ∀ failure,
    (a.randomKeeper fuel .stream address membership w).1 = .error (.failure failure) →
      failure.isHostFailure = true ∨
        ∃ limit, a.attemptLimit = some limit ∧ failure = .exhausted limit.toNat

/-- A search for a keeper fails only because of the host or because the attempts are used up. -/
theorem randomKeeper_failures {a : Allocator Host} {address : Option Address}
    (hprobe : a.probe.Paired address) (fuel : Nat) (membership : Bool) :
    Fails (a.randomKeeper fuel .stream address membership) fun stop =>
      ∀ failure, stop = .failure failure → failure.isHostFailure = true ∨
        ∃ limit, a.attemptLimit = some limit ∧ failure = .exhausted limit.toNat := by
  refine a.randomKeeper_fails fuel membership ?_ ?_ ?_
  · intro w stop w' hrun failure hfailure
    rcases draw_fails w stop w' hrun with rfl | ⟨rfl, -⟩ <;> cases hfailure
  · rintro port l failure l' hrun failure' ⟨rfl⟩
    exact .inl (hprobe.fails port l failure l' hrun)
  · intro failure hfailure
    unfold outOfSteps at hfailure
    split at hfailure <;> cases hfailure
    exact .inr ⟨_, ‹_›, rfl⟩

/-- If the questions of its probe fit together, the two searches of an allocator end alike. -/
theorem endAlike_of_paired {a : Allocator Host} {address : Option Address}
    (hprobe : a.probe.Paired address) (fuel : Nat) (membership : Bool) (w : World Host) :
    EndAlike (a.randomPort fuel .stream address membership w)
      (a.randomKeeper fuel .stream address membership w) := by
  obtain ⟨-, hanswer, hrandomness, hhost⟩ := searchWithinLimit_inStep hprobe fuel membership w
  rw [randomPort, randomKeeper, chain_apply, chain_apply]
  rcases hplain : a.searchWithinLimit fuel membership (a.check .stream address)
    (fun port attempts w => w.note (.candidateInUse port attempts)) w with ⟨result, v⟩
  rw [hplain] at hanswer hrandomness hhost
  obtain rfl := hanswer
  rcases hkeeping : a.searchWithinLimit fuel membership (a.probe.keep · .stream address)
    (fun _ _ w => w) w with ⟨stop | found, v'⟩ <;> rw [hkeeping] at hrandomness hhost
  · exact ⟨rfl, hrandomness, hhost, by rintro keeper ⟨⟩⟩
  · obtain ⟨l, hask⟩ := a.searchWithinLimit_ok fuel membership hkeeping
    obtain ⟨hport, hopen⟩ := hprobe.gives found.port hask
    refine ⟨congrArg Except.ok hport.symm, hrandomness, hhost, ?_⟩
    rintro keeper ⟨rfl⟩
    exact hopen

/-- A port that is kept was drawn last. -/
theorem last_drawnForKeeper {a : Allocator Host} {address : Option Address}
    (hprobe : a.probe.Paired address) {fuel : Nat} {membership : Bool} {w w' : World Host}
    {keeper : Keeper}
    (hrun : a.randomKeeper fuel .stream address membership w = (.ok keeper, w')) :
    (a.drawnForKeeper fuel membership .stream address w).getLast? = some keeper.port := by
  obtain ⟨found, v, hsearch, hrun⟩ := chain_ok hrun
  cases hrun
  obtain ⟨l, hask⟩ := a.searchWithinLimit_ok fuel membership hsearch
  rw [(hprobe.gives found.port hask).1]
  exact (a.drawnWithinLimit_of_ok fuel membership hsearch).1

/-- A search for a keeper that tells of used up attempts has drawn as many ports as it tells. -/
theorem length_drawnForKeeper {a : Allocator Host} {address : Option Address}
    (hprobe : a.probe.Paired address) {fuel : Nat} {membership : Bool} {w w' : World Host}
    {attempts : Nat}
    (hrun : a.randomKeeper fuel .stream address membership w =
      (.error (.failure (.exhausted attempts)), w')) :
    (a.drawnForKeeper fuel membership .stream address w).length = attempts := by
  have hnot : ∀ port, Fails (a.probe.keep port .stream address) (· ≠ .exhausted attempts) := by
    rintro port l failure l' hask rfl
    have hhost := hprobe.fails port l _ l' hask
    simp [Failure.isHostFailure] at hhost
  rw [randomKeeper, chain_apply] at hrun
  rcases hsearch : a.searchWithinLimit fuel membership (a.probe.keep · .stream address)
    (fun _ _ w => w) w with ⟨stop | found, v⟩ <;> rw [hsearch] at hrun <;> cases hrun
  exact a.length_drawnWithinLimit_of_exhausted fuel membership hnot hsearch

/-- Whatever calls fail, and whatever words the generator gives, the search for a free stream port
and the search for one to keep go in step. -/
theorem searches_in_step (p : Prober) (generator : GeneratorId) (config : Config) (fuel : Nat)
    (address : Option Address) (membership : Bool) (w : World Host) :
    (ofConfig p.probe generator config).InStep fuel address membership w := by
  let a := ofConfig p.probe generator config
  have hprobe : a.probe.Paired address := p.probe_paired address
  have hends := endAlike_of_paired hprobe fuel membership w
  have hrun {result : Except Stop Keeper}
      (hresult : (a.randomKeeper fuel .stream address membership w).1 = result) :
      a.randomKeeper fuel .stream address membership w =
        (result, (a.randomKeeper fuel .stream address membership w).2) :=
    Prod.ext_iff.mpr ⟨hresult, rfl⟩
  constructor
  case toEndAlike => exact hends
  case drawn => exact (searchWithinLimit_inStep hprobe fuel membership w).1
  case found => exact fun keeper hkept => last_drawnForKeeper hprobe (hrun hkept)
  case exhausted => exact fun attempts hused => length_drawnForKeeper hprobe (hrun hused)
  case calls => rw [hends.host, Host.calls_afterDrop]
  case failures =>
    exact fun failure hfails =>
      randomKeeper_failures hprobe fuel membership w _ _ (hrun hfails) failure rfl

end Allocator

end PortWarden
