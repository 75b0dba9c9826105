import PortWarden.Proofs.Dealing
import PortWarden.Proofs.Run

/-!
# One generator for a process

The first request for the generator of a process makes it, of the kind that is asked for; every
later request gets the same one, whatever it asks for, and so does every service that is made. So
all ports that are drawn in a process, through whatever it has obtained and in whatever order, are
dealt from one stream of words.
-/

namespace PortWarden

/-- The fast generator of which eight words are the full seed. -/
def Xoshiro.ofWords (word : Nat → UInt32) : Xoshiro :=
  let pair (i : Nat) : UInt64 := (word i).toUInt64 ||| (word (i + 1)).toUInt64 <<< 32
  ofState ⟨pair 0, pair 2, pair 4, pair 6⟩

/-- The seed that is taken from a source are its next eight words. -/
theorem Xoshiro.ofEntropy_eq (e : Entropy) :
    ofEntropy e = (ofWords fun i => e.word (e.taken + i), { e with taken := e.taken + 8 }) := rfl

/-- Events that are reported leave the random state alone. -/
theorem World.randomness_notes {σ : Type} (events : List Event) (w : World σ) :
    (events.foldl World.note w).randomness = w.randomness := by
  induction events generalizing w with
  | nil => rfl
  | cons event events ih => exact ih (w.note event)

namespace Randomness

variable {r : Randomness}

/-- The first request for the generator of the process makes it. -/
theorem share_of_none (hnone : r.shared = none) (fast : Bool) :
    (r.share fast).1 = r.generators.length ∧
      (r.share fast).2.1 = {
        entropy := (Generator.ofKind fast r.entropy).2
        generators := r.generators ++ [(Generator.ofKind fast r.entropy).1]
        shared := some r.generators.length } := by
  simp only [share, hnone]
  exact ⟨rfl, rfl⟩

/-- Later requests get it and change nothing. -/
theorem share_of_some {id : GeneratorId} (hsome : r.shared = some id) (fast : Bool) :
    (r.share fast).1 = id ∧ (r.share fast).2.1 = r := by
  simp only [share, hsome, and_self]

end Randomness

/-- The service of the process requests the generator of the process, and draws with that. -/
theorem Service.ofProcess_shares {σ : Type} (config : Config) (w : World σ) :
    (ofProcess config w).2.randomness = (w.randomness.share config.fastRandom).2.1 ∧
      ∀ service, (ofProcess config w).1 = .ok service →
        service.generator = (w.randomness.share config.fastRandom).1 := by
  simp only [ofProcess]
  split
  · rename_i service hmade
    refine ⟨World.randomness_notes _ _, ?_⟩
    rintro _ ⟨rfl⟩
    obtain ⟨rfl, -⟩ := ofProber_eq_ok_iff.mp hmade
    rfl
  · refine ⟨World.randomness_notes _ _, ?_⟩
    rintro _ ⟨⟩

/-- A process, and what it has obtained so far. -/
structure Process where
  /-- The host, the events reported, and the random state. -/
  world : World Host
  /-- The keepers by their names. -/
  keepers : List (String × Keeper) := []
  /-- The sockets taken out of keepers, by the keepers' names. -/
  listeners : List (String × SocketId) := []
  /-- The generators that were obtained, by request or with a service, in order. -/
  handles : List GeneratorId := []
  /-- The services that were made, in order. -/
  services : List Service := []

namespace Process

/-- What can be done in a process about random ports. -/
inductive Demand where
  /-- The generator of the process is requested. -/
  | share (fast : Bool)
  /-- A service that draws with the generator of the process is requested. -/
  | serve (config : Config)
  /-- A port is drawn with the generator that was obtained at a certain place. -/
  | draw (place : Nat) (range : PortRange)
  /-- The service that was made at a certain place is asked something. -/
  | ask (place : Nat) (request : Request)

/-- The kind of generator that is requested, if one is. -/
def Demand.kind? : Demand → Option Bool
  | share fast => some fast
  | serve config => some config.fastRandom
  | draw .. | ask .. => none

/-- Meets a demand, and tells the ports that are drawn for it, each with the range from which it is
drawn. There is no answer if it takes longer than it is watched. What was not obtained is not asked,
and no port is drawn from a range whose bounds are inverted. -/
def step (fuel : Nat) (demand : Demand) (p : Process) :
    Option (List (PortRange × UInt16) × Process) :=
  match demand with
  | .share fast =>
    let (id, randomness, events) := p.world.randomness.share fast
    let world := events.foldl World.note { p.world with randomness }
    some ([], { p with world, handles := p.handles ++ [id] })
  | .serve config =>
    match Service.ofProcess config p.world with
    | (.ok service, world) =>
      some ([], { p with
        world
        handles := p.handles ++ [service.generator]
        services := p.services ++ [service] })
    | (.error _, world) => some ([], { p with world })
  | .draw place range =>
    match p.handles[place]? with
    | none => some ([], p)
    | some id =>
      match PortWarden.draw fuel id range p.world with
      | (.ok port, world) => some ([(range, port)], { p with world })
      | (.error .unfinished, _) => none
      | (.error _, world) => some ([], { p with world })
  | .ask place request =>
    match p.services[place]? with
    | none => some ([], p)
    | some service =>
      let (reply, s) := Session.step fuel request ⟨service, p.keepers, p.listeners, p.world⟩
      if reply = .stopped .unfinished then none
      else
        some (service.deals fuel request p.world,
          { p with world := s.world, keepers := s.keepers, listeners := s.listeners })

/-- Meets demands one after the other, and tells the ports that are drawn, in order. -/
def run (fuel : Nat) : List Demand → Process → Option (List (PortRange × UInt16) × Process)
  | [], p => some ([], p)
  | demand :: rest, p => do
    let (draws, p) ← p.step fuel demand
    let (more, p) ← run fuel rest p
    return (draws ++ more, p)

/-- A process in which nothing was obtained and no generator requested. -/
structure Fresh (p : Process) : Prop where
  /-- There is no generator of the process. -/
  shared : p.world.randomness.shared = none
  /-- No generator was obtained. -/
  handles : p.handles = []
  /-- No service was made. -/
  services : p.services = []

/-- A process that has its generator, and has obtained no other. -/
structure Shares (p : Process) (id : GeneratorId) : Prop where
  /-- It is the generator of the process. -/
  shared : p.world.randomness.shared = some id
  /-- There is such a generator. -/
  stored : id < p.world.randomness.generators.length
  /-- Every handle is one of this generator. -/
  handles : ∀ handle ∈ p.handles, handle = id
  /-- Every service draws with it. -/
  services : ∀ service ∈ p.services, service.generator = id

section

variable {p p' : Process} {fuel : Nat} {demand : Demand} {id : GeneratorId}
  {draws : List (PortRange × UInt16)}

/-- A process keeps its generator as long as ports are drawn with that, and nothing is obtained that
would draw with another. -/
theorem Shares.of_deals (hp : p.Shares id)
    (hdeals : p.world.randomness.Deals id draws p'.world.randomness)
    (hhandles : ∀ handle ∈ p'.handles, handle ∈ p.handles ∨ handle = id)
    (hservices : ∀ service ∈ p'.services, service ∈ p.services ∨ service.generator = id) :
    p'.Shares id ∧ p.world.randomness.Deals id draws p'.world.randomness := by
  obtain ⟨hlength, hshared⟩ := hdeals.keeps
  refine ⟨⟨hshared.trans hp.shared, Nat.lt_of_lt_of_eq hp.stored hlength.symm, ?_, ?_⟩, hdeals⟩
  · exact fun handle hmem => (hhandles handle hmem).elim (hp.handles handle) fun hsame => hsame
  · exact fun service hmem =>
      (hservices service hmem).elim (hp.services service) fun hsame => hsame

/-- A request for the generator of the process gives the one that there is. -/
theorem Shares.step_share {fast : Bool} (hp : p.Shares id)
    (hstep : p.step fuel (.share fast) = some (draws, p')) :
    p'.Shares id ∧ p.world.randomness.Deals id draws p'.world.randomness := by
  obtain ⟨hid, hsame⟩ := Randomness.share_of_some hp.shared fast
  simp only [Process.step] at hstep
  cases hstep
  have hleft := (World.randomness_notes (p.world.randomness.share fast).2.2
    { p.world with randomness := (p.world.randomness.share fast).2.1 }).trans hsame
  refine hp.of_deals (.of_eq hleft) ?_ fun _ => .inl
  simp [hid]

/-- A request for a service gives one that draws with the generator that there is. -/
theorem Shares.step_serve {config : Config} (hp : p.Shares id)
    (hstep : p.step fuel (.serve config) = some (draws, p')) :
    p'.Shares id ∧ p.world.randomness.Deals id draws p'.world.randomness := by
  obtain ⟨hid, hsame⟩ := Randomness.share_of_some hp.shared config.fastRandom
  obtain ⟨hrandomness, hgenerator⟩ := Service.ofProcess_shares config p.world
  have hleft := hrandomness.trans hsame
  simp only [Process.step] at hstep
  rcases hmade : Service.ofProcess config p.world with ⟨failure | service, world⟩ <;>
    rw [hmade] at hstep hgenerator hleft <;> cases hstep
  · exact hp.of_deals (.of_eq hleft) (fun _ => .inl) fun _ => .inl
  · have hservice : service.generator = id := (hgenerator service rfl).trans hid
    refine hp.of_deals (.of_eq hleft) ?_ fun other hother => ?_
    · simp [hservice]
    · rcases List.mem_append.mp hother with hbefore | hnew
      · exact .inl hbefore
      · exact .inr (List.mem_singleton.mp hnew ▸ hservice)

/-- A port is drawn with the generator that there is. -/
theorem Shares.step_draw {place : Nat} {range : PortRange} (hp : p.Shares id)
    (hstep : p.step fuel (.draw place range) = some (draws, p')) :
    p'.Shares id ∧ p.world.randomness.Deals id draws p'.world.randomness := by
  simp only [Process.step] at hstep
  cases hplace : p.handles[place]? with
  | none =>
    rw [hplace] at hstep
    cases hstep
    exact ⟨hp, .nothing _⟩
  | some handle =>
    obtain rfl : handle = id := hp.handles handle (List.mem_of_getElem? hplace)
    have hdraw := draw_deals fuel handle range p.world
    rw [hplace] at hstep
    rcases hrun : PortWarden.draw fuel handle range p.world with ⟨(_ | _ | _) | port, world⟩ <;>
      simp only [hrun] at hstep hdraw <;> cases hstep <;>
      exact hp.of_deals (hdraw (by simp)) (fun _ => .inl) fun _ => .inl

/-- A service draws with the generator that there is. -/
theorem Shares.step_ask {place : Nat} {request : Request} (hp : p.Shares id)
    (hstep : p.step fuel (.ask place request) = some (draws, p')) :
    p'.Shares id ∧ p.world.randomness.Deals id draws p'.world.randomness := by
  simp only [Process.step] at hstep
  cases hplace : p.services[place]? with
  | none =>
    rw [hplace] at hstep
    cases hstep
    exact ⟨hp, .nothing _⟩
  | some service =>
    obtain rfl : service.generator = id := hp.services service (List.mem_of_getElem? hplace)
    have hdeals := Session.step_deals ⟨service, p.keepers, p.listeners, p.world⟩ fuel request
    simp only [hplace] at hstep
    split at hstep
    · cases hstep
    · rename_i hends
      cases hstep
      exact hp.of_deals (hdeals hends) (fun _ => .inl) fun _ => .inl

/-- Whatever is demanded, a process keeps its generator, and what it draws it draws with that. -/
theorem Shares.step (hp : p.Shares id) (hstep : p.step fuel demand = some (draws, p')) :
    p'.Shares id ∧ p.world.randomness.Deals id draws p'.world.randomness := by
  cases demand with
  | share fast => exact hp.step_share hstep
  | serve config => exact hp.step_serve hstep
  | draw place range => exact hp.step_draw hstep
  | ask place request => exact hp.step_ask hstep

/-- So it does along a whole run. -/
theorem Shares.run {demands : List Demand} (hp : p.Shares id)
    (hrun : p.run fuel demands = some (draws, p')) :
    p'.Shares id ∧ p.world.randomness.Deals id draws p'.world.randomness := by
  induction demands generalizing p draws with
  | nil =>
    cases hrun
    exact ⟨hp, .nothing _⟩
  | cons demand rest ih =>
    simp only [Process.run, Option.bind_eq_bind, Option.bind_eq_some_iff] at hrun
    obtain ⟨⟨first, m⟩, hstep, ⟨more, last⟩, hrest, hend⟩ := hrun
    cases hend
    obtain ⟨hm, hfirst⟩ := hp.step hstep
    obtain ⟨hlast, hmore⟩ := ih hm hrest
    exact ⟨hlast, hfirst.append hmore⟩

/-- Before a generator is requested, nothing is drawn. -/
theorem Fresh.idles (hp : p.Fresh) (hkind : demand.kind? = none)
    (hstep : p.step fuel demand = some (draws, p')) : draws = [] ∧ p' = p := by
  cases demand with
  | share | serve => cases hkind
  | draw | ask =>
    simp only [Process.step, hp.handles, hp.services, List.getElem?_nil] at hstep
    cases hstep
    exact ⟨rfl, rfl⟩

/-- The first request makes the generator of the process, of the kind that is requested. -/
theorem Fresh.shares {fast : Bool} (hp : p.Fresh) (hkind : demand.kind? = some fast)
    (hstep : p.step fuel demand = some (draws, p')) :
    draws = [] ∧ p'.Shares p.world.randomness.generators.length ∧
      p'.world.randomness = (p.world.randomness.share fast).2.1 := by
  obtain ⟨hid, hmade⟩ := Randomness.share_of_none hp.shared fast
  have hshares {q : Process} (hleft : q.world.randomness = (p.world.randomness.share fast).2.1)
      (hhandles : ∀ handle ∈ q.handles, handle = (p.world.randomness.share fast).1)
      (hservices : ∀ service ∈ q.services,
        service.generator = (p.world.randomness.share fast).1) :
      q.Shares p.world.randomness.generators.length := by
    rw [hmade] at hleft
    rw [hid] at hhandles hservices
    exact ⟨by rw [hleft], by simp [hleft], hhandles, hservices⟩
  cases demand with
  | draw | ask => cases hkind
  | share =>
    cases hkind
    simp only [Process.step] at hstep
    cases hstep
    have hleft := World.randomness_notes (p.world.randomness.share fast).2.2
      { p.world with randomness := (p.world.randomness.share fast).2.1 }
    exact ⟨rfl, hshares hleft (by simp [hp.handles]) (by simp [hp.services]), hleft⟩
  | serve config =>
    cases hkind
    obtain ⟨hleft, hgenerator⟩ := Service.ofProcess_shares config p.world
    simp only [Process.step] at hstep
    rcases hrun : Service.ofProcess config p.world with ⟨failure | service, world⟩ <;>
      rw [hrun] at hstep hgenerator hleft <;> cases hstep
    · exact ⟨rfl, hshares hleft (by simp [hp.handles]) (by simp [hp.services]), hleft⟩
    · have hservice := hgenerator service rfl
      exact ⟨rfl, hshares hleft (by simp [hp.handles, hservice]) (by simp [hp.services, hservice]),
        hleft⟩

/-- A run in which a generator is requested draws its ports with the one that the first request
makes. -/
theorem Fresh.run {demands : List Demand} {fast : Bool} (hp : p.Fresh)
    (hfirst : demands.findSome? Demand.kind? = some fast)
    (hrun : p.run fuel demands = some (draws, p')) :
    p'.Shares p.world.randomness.generators.length ∧
      (p.world.randomness.share fast).2.1.Deals p.world.randomness.generators.length draws
        p'.world.randomness := by
  induction demands generalizing draws with
  | nil => cases hfirst
  | cons demand rest ih =>
    simp only [Process.run, Option.bind_eq_bind, Option.bind_eq_some_iff] at hrun
    obtain ⟨⟨first, m⟩, hstep, ⟨more, last⟩, hrest, hend⟩ := hrun
    cases hend
    rw [List.findSome?_cons] at hfirst
    cases hkind : demand.kind? with
    | none =>
      rw [hkind] at hfirst
      obtain ⟨rfl, rfl⟩ := hp.idles hkind hstep
      exact ih hfirst hrest
    | some kind =>
      rw [hkind] at hfirst
      cases hfirst
      obtain ⟨rfl, hm, hmade⟩ := hp.shares hkind hstep
      rw [← hmade]
      exact hm.run hrest

end

/-- A process of which all ports are drawn with one generator, of a certain kind. The words of the
system are those that there were before it was requested. -/
structure OneGenerator (fast : Bool) (e : Entropy) (draws : List (PortRange × UInt16)) (p : Process)
    (id : GeneratorId) : Prop where
  /-- Every request for a generator has given this one. -/
  handles : ∀ handle ∈ p.handles, handle = id
  /-- Every service draws with it. -/
  services : ∀ service ∈ p.services, service.generator = id
  /-- It is of that kind. -/
  kind : (p.world.randomness.generator id).isFast = fast
  /-- A fast generator has the next eight words of the system for its seed, and no other words are
  taken from that. All ports are dealt from the one stream of words that it computes, from its start
  on. -/
  computed : fast = true → p.world.randomness.entropy = { e with taken := e.taken + 8 } ∧
    ∃ stop, Dealt
      (fun n => (Xoshiro.step^[n] (.ofWords fun i => e.word (e.taken + i))).output) 0 draws stop
  /-- For a strong generator no words are taken. All ports are dealt from the words of the system,
  from the next one on, and no others are taken from that. -/
  taken : fast = false → p.world.randomness.entropy.word = e.word ∧
    Dealt e.word e.taken draws p.world.randomness.entropy.taken

/-- Whatever is requested in a process, in whatever order, and whatever is drawn with what it has
obtained: there is one generator, of the kind that is requested first, and all ports are dealt from
the words of that. -/
theorem one_generator {p p' : Process} {fuel : Nat} {demands : List Demand} {fast : Bool}
    {draws : List (PortRange × UInt16)} (hfresh : p.Fresh)
    (hfirst : demands.findSome? Demand.kind? = some fast)
    (hrun : p.run fuel demands = some (draws, p')) :
    ∃ id, OneGenerator fast p.world.randomness.entropy draws p' id := by
  let r := p.world.randomness
  let e := r.entropy
  let id := r.generators.length
  let made := (r.share fast).2.1
  obtain ⟨hshares, hdeals⟩ := hfresh.run hfirst hrun
  obtain ⟨-, hmade⟩ := Randomness.share_of_none hfresh.shared fast
  have hstored : id < made.generators.length := by simp [made, r, id, hmade]
  have hstart : Generator.ofKind fast e = (made.generator id, made.entropy) := by
    simp [made, r, e, id, hmade, Randomness.generator]
  cases fast with
  | true =>
    let seed := Xoshiro.ofWords fun i => e.word (e.taken + i)
    have hplace : (Generator.fast seed).skip 0 { e with taken := e.taken + 8 } =
        (made.generator id, made.entropy) := by
      rw [← hstart, Generator.ofKind, if_pos rfl, Xoshiro.ofEntropy_eq, Generator.skip]
    obtain ⟨stop, hdealt, hleft⟩ := hdeals.dealt hstored hplace
    rw [Generator.skip_fast] at hleft
    obtain ⟨hgenerator, hentropy⟩ := Prod.mk.inj hleft
    rw [funext (Generator.word_fast seed _)] at hdealt
    exact ⟨id, {
      handles := hshares.handles
      services := hshares.services
      kind := congrArg Generator.isFast hgenerator.symm
      computed := fun _ => ⟨hentropy.symm, stop, hdealt⟩
      taken := by simp }⟩
  | false =>
    -- the words of the system are counted from its first one on
    have hplace : Generator.strong.skip e.taken { e with taken := 0 } =
        (made.generator id, made.entropy) := by
      rw [Generator.skip_strong, Nat.zero_add]
      exact hstart
    obtain ⟨stop, hdealt, hleft⟩ := hdeals.dealt hstored hplace
    rw [Generator.skip_strong, Nat.zero_add] at hleft
    obtain ⟨hgenerator, hentropy⟩ := Prod.mk.inj hleft
    rw [funext (Generator.word_strong _)] at hdealt
    simp only [Nat.zero_add] at hdealt
    exact ⟨id, {
      handles := hshares.handles
      services := hshares.services
      kind := congrArg Generator.isFast hgenerator.symm
      computed := by simp
      taken := fun _ => hentropy ▸ ⟨rfl, hdealt⟩ }⟩

/-- A fast generator is requested and draws a port; so does a handle for which a strong one is
requested, and after them a service that is to have a strong one as well. The ports are the first
three of the one generator that there is. -/
theorem one_generator_on_loopback :
    let range : PortRange := ⟨20001, 29999⟩
    let e : Entropy := .cycle [11, 22, 33, 4000000000, 55, 66, 77, 88, 99]
    let p : Process := { world := { Session.onLoopback.world with randomness := { entropy := e } } }
    let demands : List Demand := [.share true, .draw 0 range, .share false, .draw 1 range,
      .serve { bindAddress := some (.v4 .loopback) }, .ask 0 (.randomByDefault .stream)]
    let draws := [(range, 22149), (range, 29848), (range, 28209)]
    p.Fresh ∧ demands.findSome? Demand.kind? = some true ∧
      ∃ p', p.run 1 demands = some (draws, p') ∧ ∃ id, OneGenerator true e draws p' id := by
  intro range e p demands draws
  have hfresh : p.Fresh := by constructor <;> rfl
  have hdraws : (p.run 1 demands).map (·.1) = some draws := by decide +kernel
  obtain ⟨⟨_, p'⟩, hrun, rfl⟩ := Option.map_eq_some_iff.mp hdraws
  exact ⟨hfresh, rfl, p', hrun, one_generator hfresh rfl hrun⟩

end Process

end PortWarden
