import PortWarden.Proofs.Validity

/-!
# Environments laid over configurations

Reading a variable depends on its value and on the names that the resolver knows, and on nothing
else. What is read is stored in a place of its own: a later value of the same variable replaces an
earlier one, and values of different variables do not get in each other's way. So two environments
that are laid over a configuration one after the other come to the same as one that holds the values
of both.
-/

namespace PortWarden

/-- What the resolver knows. -/
abbrev KnownNames := List (String × Lookup)

/-- A reading of settings that takes nothing of its surroundings into account but the names that the
resolver knows, and leaves those as they are. -/
structure ByNames {α : Type} (reading : Configuring α) : Prop where
  /-- Where the same names are known, the same is read. -/
  answer : ∀ w w' : Logged Host, w.state.names = w'.state.names → (reading w).1 = (reading w').1
  /-- The names stay known. -/
  names : ∀ w : Logged Host, (reading w).2.state.names = w.state.names

namespace ByNames

variable {α β : Type}

/-- What is known beforehand takes nothing into account. -/
theorem pure (a : α) : ByNames (pure a) := ⟨fun _ _ _ => rfl, fun _ => rfl⟩

/-- A failure by itself takes nothing into account. -/
theorem throw (failure : Failure) : ByNames (throw failure : Configuring α) :=
  ⟨fun _ _ _ => rfl, fun _ => rfl⟩

/-- A chain of readings takes into account what they do. -/
theorem chain {x : Configuring α} {f : α → Configuring β} (hx : ByNames x)
    (hf : ∀ a, ByNames (f a)) : ByNames (x >>= f) := by
  constructor
  · intro w w' hsame
    have hanswer := hx.answer w w' hsame
    have hnames := hx.names w
    have hnames' := hx.names w'
    rw [chain_apply, chain_apply]
    rcases hrun : x w with ⟨result, m⟩
    rcases hrun' : x w' with ⟨result', m'⟩
    rw [hrun] at hanswer hnames
    rw [hrun'] at hanswer hnames'
    obtain rfl : result = result' := hanswer
    cases result with
    | error failure => rfl
    | ok a => exact (hf a).answer m m' (hnames.trans (hsame.trans hnames'.symm))
  · intro w
    have hnames := hx.names w
    rw [chain_apply]
    rcases hrun : x w with ⟨failure | a, m⟩ <;> rw [hrun] at hnames
    · exact hnames
    · exact ((hf a).names m).trans hnames

end ByNames

namespace Variable

/-- Reading a value takes nothing into account. -/
theorem readValue_byNames {α : Type} (read? : List Char → Option α) (key value : String) :
    ByNames (readValue read? key value) := by
  unfold readValue
  split
  · exact .pure _
  · exact .throw _

/-- Reading a truth value takes nothing into account. -/
theorem readFlag_byNames (key value : String) : ByNames (readFlag key value) := by
  unfold readFlag
  split
  · exact .pure _
  · exact .throw _

/-- Reading an address takes into account what the resolver knows. -/
theorem readAddress_byNames (value : String) : ByNames (readAddress value) := by
  constructor
  · intro w w' hsame
    simp only [readAddress, Host.resolve]
    split
    · rfl
    · split
      · rfl
      · simp only [Host.lookup, hsame]
  · intro w
    simp only [readAddress, Host.resolve]
    split
    · rfl
    · split <;> rfl

/-- Reading a membership range takes nothing into account. -/
theorem readMembershipRange_byNames (value : String) : ByNames (readMembershipRange value) := by
  unfold readMembershipRange
  split
  · exact .pure _
  · exact .chain ⟨fun _ _ _ => rfl, fun _ => rfl⟩ fun _ => .pure _

/-- A variable takes into account what the reading of its value does. -/
theorem setting_byNames {α : Type} {key : String} {read : String → String → Configuring α}
    {store : α → Config → Config} (hread : ∀ value, ByNames (read key value)) (value : String) :
    ByNames ((setting key read store).read value) := by
  have hchain : (setting key read store).read value = read key value >>= fun a => pure (store a) :=
    (bind_pure_comp _ _).symm
  rw [hchain]
  exact (hread value).chain fun _ => .pure _

/-- A change of configurations that a variable can make. -/
def Makes (v : Variable) (change : Config → Config) : Prop :=
  ∃ value w w', v.read value w = (.ok change, w')

/-- A variable whose later values replace its earlier ones. -/
def Replaces (v : Variable) : Prop :=
  ∀ later earlier, v.Makes later → v.Makes earlier → ∀ c, later (earlier c) = later c

/-- Two variables of which it does not matter whose value comes first. -/
def Independent (v v' : Variable) : Prop :=
  ∀ change change', v.Makes change → v'.Makes change' → ∀ c, change (change' c) = change' (change c)

section

variable {α β : Type} {key key' : String} {read : String → String → Configuring α}
  {read' : String → String → Configuring β} {store : α → Config → Config}
  {store' : β → Config → Config}

/-- The changes that a variable makes are those of storing something. -/
theorem Makes.exists_store {change : Config → Config}
    (hmakes : (setting key read store).Makes change) : ∃ a, change = store a := by
  obtain ⟨value, w, w', hrun⟩ := hmakes
  have hchain : (setting key read store).read value = read key value >>= fun a => pure (store a) :=
    (bind_pure_comp _ _).symm
  rw [hchain] at hrun
  obtain ⟨a, m, -, hrest⟩ := chain_ok hrun
  cases hrest
  exact ⟨a, rfl⟩

/-- A variable replaces its values if storing does. -/
theorem replaces_setting (hstore : ∀ a b c, store a (store b c) = store a c) :
    (setting key read store).Replaces := by
  intro later earlier hlater hearlier c
  obtain ⟨a, rfl⟩ := hlater.exists_store
  obtain ⟨b, rfl⟩ := hearlier.exists_store
  exact hstore a b c

/-- Two variables are independent if storing for one commutes with storing for the other. -/
theorem independent_setting
    (hstore : ∀ a b c, store a (store' b c) = store' b (store a c)) :
    (setting key read store).Independent (setting key' read' store') := by
  intro change change' hchange hchange' c
  obtain ⟨a, rfl⟩ := hchange.exists_store
  obtain ⟨b, rfl⟩ := hchange'.exists_store
  exact hstore a b c

end

/-- What is read from any variable depends on the names that the resolver knows only. -/
theorem byNames_of_mem_all : ∀ v ∈ all, ∀ value, ByNames (v.read value) := by
  simp only [all, List.forall_mem_cons, List.not_mem_nil, false_imp_iff, implies_true, and_true]
  refine ⟨?_, ?_, ?_, ?_, ?_, ?_, ?_, ?_, ?_, ?_⟩ <;> refine setting_byNames fun value => ?_
  case refine_3 => exact readMembershipRange_byNames value
  case refine_4 | refine_5 => exact readAddress_byNames value
  case refine_7 | refine_8 => exact readFlag_byNames _ value
  all_goals exact readValue_byNames _ _ value

/-- Every variable replaces its earlier values. -/
theorem replaces_of_mem_all : ∀ v ∈ all, v.Replaces := by
  simp only [all, List.forall_mem_cons, List.not_mem_nil, false_imp_iff, implies_true, and_true]
  refine ⟨?_, ?_, ?_, ?_, ?_, ?_, ?_, ?_, ?_, ?_⟩ <;> exact replaces_setting fun _ _ _ => rfl

/-- No variable gets in the way of another. -/
theorem independent_all : all.Pairwise Independent := by
  simp only [all, List.pairwise_cons, List.forall_mem_cons, List.not_mem_nil, false_imp_iff,
    implies_true, and_true, List.Pairwise.nil]
  refine ⟨⟨?_, ?_, ?_, ?_, ?_, ?_, ?_, ?_, ?_⟩, ⟨?_, ?_, ?_, ?_, ?_, ?_, ?_, ?_⟩,
    ⟨?_, ?_, ?_, ?_, ?_, ?_, ?_⟩, ⟨?_, ?_, ?_, ?_, ?_, ?_⟩, ⟨?_, ?_, ?_, ?_, ?_⟩, ⟨?_, ?_, ?_, ?_⟩,
    ⟨?_, ?_, ?_⟩, ⟨?_, ?_⟩, ?_⟩ <;>
    exact independent_setting fun _ _ _ => rfl

/-- The change that a variable of an environment makes where some names are known. Without a value
it makes none. -/
def change (names : KnownNames) (env : Environment) (v : Variable) :
    Except Failure (Config → Config) :=
  match env v.key with
  | none => .ok id
  | some value => (v.read value { state := { names } }).1

section

variable {names : KnownNames} {env : Environment} {v : Variable} {f : Config → Config}

/-- The change of a variable without a value is none, and one with a value makes it. -/
theorem change_eq_ok (hf : v.change names env = .ok f) :
    (env v.key = none ∧ f = id) ∨ (∃ value, env v.key = some value ∧ v.Makes f) := by
  unfold change at hf
  split at hf
  · cases hf
    exact .inl ⟨‹_›, rfl⟩
  · rename_i value hvalue
    exact .inr ⟨value, hvalue, value, _, _, Prod.ext hf rfl⟩

/-- Applying a variable comes to its change, and the same names stay known. -/
theorem apply_byNames (env : Environment) (hv : ∀ value, ByNames (v.read value)) (c : Config)
    (w : Logged Host) :
    (v.apply env c w).1 = (v.change w.state.names env).map (· c) ∧
      (v.apply env c w).2.state.names = w.state.names := by
  unfold apply change
  rcases env v.key with _ | value
  · exact ⟨rfl, rfl⟩
  · have hanswer := (hv value).answer w { state := { names := w.state.names } } rfl
    have hnames := (hv value).names w
    simp only [chain_apply]
    rcases hrun : v.read value w with ⟨failure | g, m⟩ <;> rw [hrun] at hanswer hnames <;>
      rw [← hanswer] <;> exact ⟨rfl, hnames⟩

end

end Variable

/-- Lays an environment over another one: its values come first. -/
def Environment.over (above below : Environment) : Environment := fun key =>
  (above key).or (below key)

/-- The value above counts, and without one the value below. -/
theorem Variable.change_over {names : KnownNames} {above below : Environment} (v : Variable) :
    v.change names (above.over below) =
      if (above v.key).isSome then v.change names above else v.change names below := by
  cases habove : above v.key <;> simp [change, Environment.over, habove]

namespace Config

/-- The change that variables of an environment make, one after the other, where some names are
known. The configuration that is changed has no part in it. -/
def change (names : KnownNames) (env : Environment) :
    List Variable → Except Failure (Config → Config)
  | [] => .ok id
  | v :: vs => do
    let first ← v.change names env
    let rest ← change names env vs
    return rest ∘ first

section

variable {names : KnownNames} {env : Environment} {v : Variable} {vs : List Variable}
  {f g : Config → Config}

/-- The change of several variables is made of the changes of the first and of the others. -/
theorem change_cons_eq_ok : change names env (v :: vs) = .ok f ↔
    ∃ first rest, v.change names env = .ok first ∧ change names env vs = .ok rest ∧
      f = rest ∘ first := by
  rw [change]
  rcases v.change names env with failure | first
  · simp [bind, Except.bind]
  · rcases change names env vs with failure | rest <;>
      simp [bind, Except.bind, pure, Except.pure, eq_comm]

/-- A change that gets in the way of none of some variables commutes with theirs. -/
theorem change_comm (hf : change names env vs = .ok f)
    (hg : ∀ v ∈ vs, ∀ h, v.Makes h → ∀ c, g (h c) = h (g c)) (c : Config) : g (f c) = f (g c) := by
  induction vs generalizing f c with
  | nil =>
    cases hf
    rfl
  | cons v vs ih =>
    obtain ⟨first, rest, hfirst, hrest, rfl⟩ := change_cons_eq_ok.mp hf
    have hhead : g (first c) = first (g c) := by
      obtain ⟨-, rfl⟩ | ⟨-, -, hmakes⟩ := Variable.change_eq_ok hfirst
      · rfl
      · exact hg v (.head _) first hmakes c
    change g (rest (first c)) = rest (first (g c))
    rw [ih hrest (fun v' hv' => hg v' (.tail _ hv')), hhead]

/-- Two environments whose changes are made one after the other make the change of both. -/
theorem change_over {below above : Environment} {f g : Config → Config}
    (hreplaces : ∀ v ∈ vs, v.Replaces) (hvs : vs.Pairwise Variable.Independent)
    (hf : change names below vs = .ok f) (hg : change names above vs = .ok g) :
    change names (above.over below) vs = .ok (g ∘ f) := by
  induction vs generalizing f g with
  | nil =>
    cases hf
    cases hg
    rfl
  | cons v vs ih =>
    obtain ⟨first, rest, hfirst, hrest, rfl⟩ := change_cons_eq_ok.mp hf
    obtain ⟨first', rest', hfirst', hrest', rfl⟩ := change_cons_eq_ok.mp hg
    obtain ⟨hindependent, htail⟩ := List.pairwise_cons.mp hvs
    have hover := ih (fun v' hv' => hreplaces v' (.tail _ hv')) htail hrest hrest'
    refine change_cons_eq_ok.mpr ?_
    rw [Variable.change_over]
    obtain ⟨hnone, rfl⟩ | ⟨value, hsome, hmakes⟩ := Variable.change_eq_ok hfirst'
    · -- nothing lies above, so the first change is the one below
      exact ⟨first, _, by rw [if_neg (by simp [hnone]), hfirst], hover, rfl⟩
    · refine ⟨first', _, by rw [if_pos (by simp [hsome]), hfirst'], hover, funext fun c => ?_⟩
      -- the change above gets past those of the other variables, and then replaces the first
      have hcomm : first' (rest (first c)) = rest (first' (first c)) :=
        change_comm hrest (fun v' hv' h hh => hindependent v' hv' first' h hmakes hh) _
      have hreplaced : first' (first c) = first' c := by
        obtain ⟨-, rfl⟩ | ⟨-, -, hmakes'⟩ := Variable.change_eq_ok hfirst
        · rfl
        · exact hreplaces v (.head _) first' first hmakes hmakes' c
      change rest' (first' (rest (first c))) = rest' (rest (first' c))
      rw [hcomm, hreplaced]

/-- Environments that agree on some variables make the same change with them. -/
theorem change_congr {env' : Environment} (hsame : ∀ v ∈ vs, env v.key = env' v.key) :
    change names env vs = change names env' vs := by
  induction vs with
  | nil => rfl
  | cons v vs ih =>
    have hhead : v.change names env = v.change names env' := by
      simp only [Variable.change, hsame v (.head _)]
    rw [change, change, hhead, ih fun v' hv' => hsame v' (.tail _ hv')]

/-- Without values nothing is changed. -/
theorem change_empty (names : KnownNames) (vs : List Variable) :
    change names (fun _ => none) vs = .ok id := by
  induction vs with
  | nil => rfl
  | cons v vs ih => exact change_cons_eq_ok.mpr ⟨id, id, rfl, ih, rfl⟩

/-- Assigning variables comes to their change, and the same names stay known. -/
theorem assignAll_byNames (env : Environment)
    (hvs : ∀ v ∈ vs, ∀ value, ByNames (v.read value)) (c : Config) (w : Logged Host) :
    (assignAll env vs c w).1 = (change w.state.names env vs).map (· c) ∧
      (assignAll env vs c w).2.state.names = w.state.names := by
  induction vs generalizing c w with
  | nil => exact ⟨rfl, rfl⟩
  | cons v vs ih =>
    obtain ⟨hanswer, hnames⟩ := Variable.apply_byNames env (hvs v (.head _)) c w
    rw [assignAll, chain_apply, change]
    rcases hrun : v.apply env c w with ⟨failure | d, m⟩ <;> rw [hrun] at hanswer hnames <;>
      rcases hfirst : v.change w.state.names env with failure' | first <;>
      rw [hfirst] at hanswer <;> cases hanswer
    · exact ⟨rfl, hnames⟩
    · obtain ⟨hrest, hnames'⟩ := ih (fun v' hv' => hvs v' (.tail _ hv')) (first c) m
      refine ⟨?_, hnames'.trans hnames⟩
      rw [hrest, show m.state.names = w.state.names from hnames]
      rcases change w.state.names env vs with failure | rest <;> rfl

end

/-- What an environment makes of a configuration where some names are known. -/
def overlaid (names : KnownNames) (env : Environment) (c : Config) : Except Failure Config := do
  ((← change names env Variable.all) c).check

/-- Laying an environment over a configuration depends on the names that the resolver knows only,
and leaves those as they are. -/
theorem overlay_byNames (c : Config) (env : Environment) (w : Logged Host) :
    (c.overlay env w).1 = overlaid w.state.names env c ∧
      (c.overlay env w).2.state.names = w.state.names := by
  obtain ⟨hanswer, hnames⟩ := assignAll_byNames env Variable.byNames_of_mem_all c w
  rw [overlay, chain_apply, overlaid]
  rcases hrun : assignAll env Variable.all c w with ⟨failure | d, m⟩ <;>
    rw [hrun] at hanswer hnames <;>
    rcases hchange : change w.state.names env Variable.all with failure' | f <;>
    rw [hchange] at hanswer <;> cases hanswer
  · exact ⟨rfl, hnames⟩
  · simp only [bind, Except.bind]
    rcases (f c).check with failure | e <;> exact ⟨rfl, hnames⟩

/-- An environment makes a configuration of another if its change can be made and the result is
valid. -/
theorem overlaid_eq_ok {names : KnownNames} {env : Environment} {c d : Config} :
    overlaid names env c = .ok d ↔
      ∃ f, change names env Variable.all = .ok f ∧ d = f c ∧ d.Valid := by
  unfold overlaid
  rcases change names env Variable.all with failure | f
  · simp [bind, Except.bind]
  · change (f c).check = .ok d ↔ _
    rw [check_eq_ok_iff]
    constructor
    · rintro ⟨rfl, hvalid⟩
      exact ⟨f, rfl, rfl, hvalid⟩
    · rintro ⟨_, hf, rfl, hvalid⟩
      cases hf
      exact ⟨rfl, hvalid⟩

/-- Lays two environments over a configuration, one after the other. -/
def overlayBoth (c : Config) (first second : Environment) : Configuring Config := do
  (← c.overlay first).overlay second

/-- Two environments laid over a configuration make another of it by way of a third. -/
theorem overlayBoth_eq_ok {c d : Config} {first second : Environment} {w : Logged Host} :
    (c.overlayBoth first second w).1 = .ok d ↔
      ∃ e, overlaid w.state.names first c = .ok e ∧ overlaid w.state.names second e = .ok d := by
  obtain ⟨hanswer, hnames⟩ := overlay_byNames c first w
  rw [overlayBoth, chain_apply, ← hanswer]
  rcases hrun : c.overlay first w with ⟨failure | e, m⟩ <;> rw [hrun] at hnames
  · simp
  · change (e.overlay second m).1 = .ok d ↔ _
    rw [(overlay_byNames e second m).1, show m.state.names = w.state.names from hnames]
    simp

/-- An environment that lies over another makes what the two make one after the other. -/
theorem overlaid_over {names : KnownNames} {below above : Environment} {c d e : Config}
    (hbelow : overlaid names below c = .ok d) (habove : overlaid names above d = .ok e) :
    overlaid names (above.over below) c = .ok e := by
  obtain ⟨f, hf, rfl, -⟩ := overlaid_eq_ok.mp hbelow
  obtain ⟨g, hg, rfl, hvalid⟩ := overlaid_eq_ok.mp habove
  have hover := change_over Variable.replaces_of_mem_all Variable.independent_all hf hg
  exact overlaid_eq_ok.mpr ⟨g ∘ f, hover, rfl, hvalid⟩

/-- An environment makes nothing else of what it has made. -/
theorem overlaid_idem {names : KnownNames} {env : Environment} {c d : Config}
    (honce : overlaid names env c = .ok d) : overlaid names env d = .ok d := by
  obtain ⟨f, hf, rfl, hvalid⟩ := overlaid_eq_ok.mp honce
  have hover := change_over Variable.replaces_of_mem_all Variable.independent_all hf hf
  have hself : env.over env = env := funext fun key => Option.or_self
  rw [hself, hf] at hover
  have htwice : f ∘ f = f := (Except.ok.inj hover).symm
  exact overlaid_eq_ok.mpr ⟨f, hf, (congrFun htwice c).symm, hvalid⟩

/-- Two environments of which no variable has a value in both. -/
def Disjoint (env env' : Environment) : Prop :=
  ∀ v ∈ Variable.all, env v.key = none ∨ env' v.key = none

/-- Which of two disjoint environments lies over the other makes no difference. -/
theorem overlaid_over_comm {env env' : Environment} (hdisjoint : Disjoint env env')
    (names : KnownNames) (c : Config) :
    overlaid names (env.over env') c = overlaid names (env'.over env) c := by
  have hsame : ∀ v ∈ Variable.all, env.over env' v.key = env'.over env v.key := by
    intro v hv
    rcases hdisjoint v hv with hnone | hnone <;> simp [Environment.over, hnone]
  simp only [overlaid, change_congr hsame]

/-- How environments come together where they are laid over configurations. -/
structure Composes (w : Logged Host) : Prop where
  /-- Two environments one after the other come to the same as one with the values of both. -/
  both : ∀ (c d : Config) (first second : Environment), (c.overlayBoth first second w).1 = .ok d →
    (c.overlay (second.over first) w).1 = .ok d
  /-- An environment laid over twice comes to the same as laid over once. -/
  twice : ∀ (c : Config) (env : Environment), (c.overlayBoth env env w).1 = (c.overlay env w).1
  /-- An environment without values leaves a valid configuration as it is. -/
  empty : ∀ c : Config, c.Valid → (c.overlay (fun _ => none) w).1 = .ok c
  /-- Of disjoint environments it does not matter which comes first. -/
  comm : ∀ (c d d' : Config) (env env' : Environment), Disjoint env env' →
    (c.overlayBoth env env' w).1 = .ok d → (c.overlayBoth env' env w).1 = .ok d' → d = d'

/-- Environments laid over a configuration compose, whatever the resolver knows. -/
theorem overlays_compose (w : Logged Host) : Composes w := by
  have hboth (c d : Config) (first second : Environment)
      (hrun : (c.overlayBoth first second w).1 = .ok d) :
      overlaid w.state.names (second.over first) c = .ok d := by
    obtain ⟨e, hfirst, hsecond⟩ := overlayBoth_eq_ok.mp hrun
    exact overlaid_over hfirst hsecond
  constructor
  case both =>
    intro c d first second hrun
    rw [(overlay_byNames c _ w).1]
    exact hboth c d first second hrun
  case twice =>
    intro c env
    obtain ⟨honce, hnames⟩ := overlay_byNames c env w
    rw [overlayBoth, chain_apply]
    rcases hrun : c.overlay env w with ⟨failure | d, m⟩
    · rfl
    · rw [hrun] at honce hnames
      change (d.overlay env m).1 = .ok d
      rw [(overlay_byNames d env m).1, show m.state.names = w.state.names from hnames]
      exact overlaid_idem honce.symm
  case empty =>
    intro c hvalid
    rw [(overlay_byNames c _ w).1]
    exact overlaid_eq_ok.mpr ⟨id, change_empty _ _, rfl, hvalid⟩
  case comm =>
    intro c d d' env env' hdisjoint hrun hrun'
    have hover := hboth c d env env' hrun
    have hover' := hboth c d' env' env hrun'
    rw [overlaid_over_comm hdisjoint, hover] at hover'
    exact Except.ok.inj hover'

/-- An environment with a lower bound and one with an upper bound give the range between them. -/
theorem overlays_compose_on_bounds :
    let lower : Environment := fun key =>
      if key = "AVAILABLE_PORT_LOWER_BOUND" then some "25000" else none
    let upper : Environment := fun key =>
      if key = "AVAILABLE_PORT_UPPER_BOUND" then some "26000" else none
    (({} : Config).overlay (upper.over lower) { state := {} }).1 =
      .ok { range := ⟨25000, 26000⟩ } :=
  (overlays_compose { state := {} }).both _ _ _ _ (by rfl)

end Config
end PortWarden
