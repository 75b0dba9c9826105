import PortWarden.CommandLine.Run
import PortWarden.Proofs.Asking
import PortWarden.Proofs.Overlay

/-!
# Settings in layers

A variable overrides what is set by the layer below it, and no variable changes the place of another
one, so that each setting depends on the values of its own only. Laying an environment over a
configuration asks the host for nothing but names.
-/

namespace PortWarden

/-- A setting that may be overridden: it is what the value of its variable means, and without one it
stays. -/
def Sets {α : Type} (value? : Option String) (means : String → α → Prop) (before after : α) :
    Prop :=
  match value? with
  | none => after = before
  | some value => means value after

/-- A setting is determined if only one thing is meant by a value. -/
theorem Sets.unique {α : Type} {value? : Option String}
    {means : String → α → Prop} {before after after' : α}
    (hafter : Sets value? means before after)
    (hmeans : ∀ value a b, means value a → means value b → a = b)
    (hafter' : Sets value? means before after') : after = after' := by
  cases value? with
  | none => exact hafter.trans hafter'.symm
  | some value => exact hmeans value after after' hafter hafter'

/-- A call that asks the resolver for a name. -/
def Action.IsLookup (action : Action) : Prop := ∃ name, action = .resolve name

namespace Variable

section

variable {α β : Type} {names : KnownNames}

/-- A variable whose values mean something for a certain place. -/
def Means (v : Variable) (names : KnownNames) (place : Config → β) (means : String → β → Prop) :
    Prop :=
  ∀ value change, (v.read value { state := { names } }).1 = .ok change →
    ∀ c, means value (place (change c))

/-- A variable that leaves a place alone. -/
def Spares (v : Variable) (place : Config → β) : Prop :=
  ∀ change, v.Makes change → ∀ c, place (change c) = place c

variable {key : String} {read : String → String → Configuring α} {store : α → Config → Config}
  {place : Config → β} {means : String → β → Prop}

/-- The values of a variable mean what is read of them. -/
theorem means_setting {put : α → β}
    (hread : ∀ value a, (read key value { state := { names } }).1 = .ok a → means value (put a))
    (hstore : ∀ a c, place (store a c) = put a) :
    (setting key read store).Means names place means := by
  intro value change hrun c
  have hchain : (setting key read store).read value = read key value >>= fun a => pure (store a) :=
    (bind_pure_comp _ _).symm
  rw [hchain] at hrun
  obtain ⟨a, m, hfirst, hrest⟩ := chain_ok (Prod.ext_iff.mpr ⟨hrun, rfl⟩)
  cases hrest
  rw [hstore]
  exact hread value a (by rw [hfirst])

/-- A variable spares what storing spares. -/
theorem spares_setting (hstore : ∀ a c, place (store a c) = place c) :
    (setting key read store).Spares place := by
  intro change hmakes c
  obtain ⟨a, rfl⟩ := hmakes.exists_store
  exact hstore a c

end

end Variable

namespace Config

variable {β : Type} {names : KnownNames} {env : Environment} {place : Config → β} {v : Variable}

/-- What every variable spares is not changed. -/
theorem change_spares {vs : List Variable} {f : Config → Config}
    (hvs : ∀ v ∈ vs, v.Spares place) (hf : change names env vs = .ok f) (c : Config) :
    place (f c) = place c := by
  induction vs generalizing f c with
  | nil =>
    cases hf
    rfl
  | cons v vs ih =>
    obtain ⟨first, rest, hfirst, hrest, rfl⟩ := change_cons_eq_ok.mp hf
    obtain ⟨hhead, htail⟩ := List.forall_mem_cons.mp hvs
    have hspared : place (first c) = place c := by
      obtain ⟨-, rfl⟩ | ⟨-, -, hmakes⟩ := Variable.change_eq_ok hfirst
      · rfl
      · exact hhead first hmakes c
    exact (ih htail hrest (first c)).trans hspared

/-- A place that one variable alone stores in is set by the value of that. -/
theorem sets_of_change (place : Config → β) {means : String → β → Prop} (before : List Variable)
    {after : List Variable} {f : Config → Config} (hv : v.Means names place means)
    (hbefore : before.Forall (·.Spares place)) (hafter : after.Forall (·.Spares place))
    (hf : change names env (before ++ v :: after) = .ok f) (c : Config) :
    Sets (env v.key) means (place c) (place (f c)) := by
  induction before generalizing f c with
  | nil =>
    obtain ⟨first, rest, hfirst, hrest, rfl⟩ := change_cons_eq_ok.mp hf
    change Sets _ means _ (place (rest (first c)))
    rw [change_spares (List.forall_iff_forall_mem.mp hafter) hrest]
    unfold Variable.change at hfirst
    cases hvalue : env v.key with
    | none =>
      rw [hvalue] at hfirst
      cases hfirst
      rfl
    | some value =>
      rw [hvalue] at hfirst
      exact hv value first hfirst c
  | cons u before ih =>
    obtain ⟨first, rest, hfirst, hrest, rfl⟩ := change_cons_eq_ok.mp hf
    obtain ⟨hhead, htail⟩ := (List.forall_cons _ _ _).mp hbefore
    have hspared : place (first c) = place c := by
      obtain ⟨-, rfl⟩ | ⟨-, -, hmakes⟩ := Variable.change_eq_ok hfirst
      · rfl
      · exact hhead first hmakes c
    rw [← hspared]
    exact ih htail hrest (first c)

end Config

namespace Host

/-- A host that was asked for names and for nothing else, which only its record shows. -/
def LooksUp (h h' : Host) : Prop :=
  ∃ calls : List Call, (∀ call ∈ calls, call.action.IsLookup) ∧
    h' = { h with trace := calls ++ h.trace }

namespace LooksUp

variable {h m h' : Host}

/-- Nothing is asked. -/
theorem refl (h : Host) : h.LooksUp h := ⟨[], by simp, rfl⟩

/-- More names are asked for. -/
theorem trans (hfirst : h.LooksUp m) (hrest : m.LooksUp h') : h.LooksUp h' := by
  obtain ⟨calls, hcalls, rfl⟩ := hfirst
  obtain ⟨calls', hcalls', rfl⟩ := hrest
  refine ⟨calls' ++ calls, fun call hcall => ?_, by simp⟩
  exact (List.mem_append.mp hcall).elim (hcalls' call) (hcalls call)

/-- Resolving a name asks for that. -/
theorem resolve (text : String) (h : Host) : h.LooksUp (Host.resolve text h).2 := by
  unfold Host.resolve
  dsimp only
  split
  · exact .refl h
  · split
    · exact .refl h
    · exact ⟨[_], List.forall_mem_singleton.mpr ⟨_, rfl⟩, rfl⟩

/-- The host is asked only for names. -/
theorem asked (hlooks : h.LooksUp h') : h.Asked Action.IsLookup h' := by
  obtain ⟨calls, hcalls, rfl⟩ := hlooks
  exact ⟨rfl, rfl, rfl, calls.reverse, by simp [Host.calls], by simpa using hcalls⟩

/-- Looking names up leaves nothing open. -/
theorem leaves (hb : h.Balanced) (hlooks : h.LooksUp h') : h.Leaves h' [] := by
  obtain ⟨calls, hcalls, rfl⟩ := hlooks
  have hquiet : Quiet calls := by
    intro call hcall
    obtain ⟨name, hname⟩ := hcalls call hcall
    simp [Call.opened?, Call.closed?, hname]
  have htends : h.Tends 0 { h with trace := calls ++ h.trace } := {
    assigned := rfl
    foreign := rfl
    interfaces := rfl
    calls := List.suffix_append _ _
    faults := fun _ => rfl
    created := rfl
    ids := rfl
    others := rfl
    opened := by simp [hquiet.openedBy]
    closed := by simp [hquiet.closedBy] }
  exact .of_tends hb htends rfl

end LooksUp

end Host

/-- A question that asks for names and for nothing else. -/
def OnlyLooksUp {σ ε α : Type} (host : σ → Host) (question : ExceptT ε (StateM σ) α) : Prop :=
  ∀ s, (host s).LooksUp (host (question s).2)

namespace OnlyLooksUp

variable {σ ε α β : Type} {host : σ → Host}

/-- An answer that is known beforehand asks for nothing. -/
theorem pure (a : α) : OnlyLooksUp host (pure a : ExceptT ε (StateM σ) α) :=
  fun s => .refl (host s)

/-- A failure by itself asks for nothing. -/
theorem throw (e : ε) : OnlyLooksUp host (throw e : ExceptT ε (StateM σ) α) :=
  fun s => .refl (host s)

/-- A change of the state around the host asks for nothing. -/
theorem modify {f : σ → σ} (hf : ∀ s, host (f s) = host s) :
    OnlyLooksUp host (modify f : ExceptT ε (StateM σ) Unit) := by
  intro s
  rw [modify_apply, hf]
  exact .refl (host s)

/-- A chain asks for names if its steps do. -/
theorem chain {x : ExceptT ε (StateM σ) α} {f : α → ExceptT ε (StateM σ) β}
    (hx : OnlyLooksUp host x) (hf : ∀ a, OnlyLooksUp host (f a)) :
    OnlyLooksUp host (x >>= f) := by
  intro s
  have hfirst := hx s
  rw [chain_apply]
  rcases hrun : x s with ⟨e | a, t⟩ <;> rw [hrun] at hfirst
  · exact hfirst
  · exact hfirst.trans (hf a t)

end OnlyLooksUp

namespace Variable

/-- Reading an address asks for a name at most. -/
theorem readAddress_looksUp (value : String) : OnlyLooksUp Logged.state (readAddress value) :=
  fun w => .resolve value w.state

/-- Reading a value asks for a name at most. -/
theorem read_looksUp : ∀ v ∈ all, ∀ value, OnlyLooksUp Logged.state (v.read value) := by
  have hsetting {α : Type} {key : String} {read : String → String → Configuring α}
      {store : α → Config → Config} (hread : ∀ value, OnlyLooksUp Logged.state (read key value))
      (value : String) : OnlyLooksUp Logged.state ((setting key read store).read value) := by
    have hchain : (setting key read store).read value =
        read key value >>= fun a => pure (store a) := (bind_pure_comp _ _).symm
    rw [hchain]
    exact (hread value).chain fun _ => .pure _
  have hvalue {α : Type} (read? : List Char → Option α) (key value : String) :
      OnlyLooksUp Logged.state (readValue read? key value) := by
    unfold readValue
    cases read? (Text.trim value.toList) with
    | none => exact .throw _
    | some a => exact .pure a
  have hflag (key value : String) : OnlyLooksUp Logged.state (readFlag key value) := by
    unfold readFlag
    cases flag? (String.ofList (Text.trim value.toList)) with
    | none => exact .throw _
    | some b => exact .pure b
  have hmembership (value : String) : OnlyLooksUp Logged.state (readMembershipRange value) := by
    unfold readMembershipRange
    cases membershipRange? value with
    | none =>
      have hnote : OnlyLooksUp Logged.state
          (modify (·.note (.membershipRangeIgnored value defaultMembershipRange)) :
            Configuring Unit) := .modify fun _ => rfl
      exact hnote.chain fun _ => .pure _
    | some range => exact .pure range
  simp only [all, List.forall_mem_cons, List.not_mem_nil, false_imp_iff, implies_true, and_true]
  refine ⟨?_, ?_, ?_, ?_, ?_, ?_, ?_, ?_, ?_, ?_⟩ <;> refine hsetting fun value => ?_
  case refine_3 => exact hmembership value
  case refine_4 | refine_5 => exact readAddress_looksUp value
  case refine_7 | refine_8 => exact hflag _ value
  all_goals exact hvalue _ _ value

end Variable

/-- Laying an environment over a configuration asks for nothing but names. -/
theorem Config.overlay_looksUp (c : Config) (env : Environment) :
    OnlyLooksUp Logged.state (c.overlay env) := by
  have hassign (vs : List Variable)
      (hvs : ∀ v ∈ vs, ∀ value, OnlyLooksUp Logged.state (v.read value)) (c : Config) :
      OnlyLooksUp Logged.state (assignAll env vs c) := by
    induction vs generalizing c with
    | nil => exact .pure c
    | cons v vs ih =>
      obtain ⟨hv, hvs⟩ := List.forall_mem_cons.mp hvs
      have happly : OnlyLooksUp Logged.state (v.apply env c) := by
        unfold Variable.apply
        cases env v.key with
        | none => exact .pure c
        | some value => exact (hv value).chain fun change => .pure (change c)
      exact happly.chain fun d => ih hvs d
  refine (hassign _ Variable.read_looksUp c).chain fun d => ?_
  rcases d.check with failure | e
  · exact .throw _
  · exact .pure e

namespace CommandLine

namespace Running

variable {α : Type}

/-- What is known without asking passes if it is no failure. -/
theorem ofExcept_ok {context : Option Context} {known : Except Failure α} {w w' : World Host}
    {a : α} (hrun : ofExcept context known w = (.ok a, w')) : known = .ok a ∧ w' = w := by
  cases known <;> cases hrun
  exact ⟨rfl, rfl⟩

/-- A part of the configuration that passes is what was asked for. -/
theorem configuring_ok {context : Option Context} {question : Configuring α} {w w' : World Host}
    {a : α} (hrun : configuring context question w = (.ok a, w')) :
    (question w.toLogged).1 = .ok a ∧ w'.host = (question w.toLogged).2.state := by
  obtain ⟨hanswer, rfl⟩ := ofExcept_ok hrun
  exact ⟨hanswer, rfl⟩

/-- A part of the configuration passes if its question is answered. -/
theorem configuring_of_ok {context : Option Context} {question : Configuring α} {w : World Host}
    {a : α} (hanswer : (question w.toLogged).1 = .ok a) :
    configuring context question w =
      (.ok a, { w with toLogged := (question w.toLogged).2 }) := by
  change ofExcept context (question w.toLogged).1 _ = _
  rw [hanswer]
  rfl

/-- A part of the configuration asks for what it asks for on the host. -/
theorem configuring_looksUp (context : Option Context) {question : Configuring α}
    (hquestion : OnlyLooksUp Logged.state question) :
    OnlyLooksUp World.host (configuring context question) := by
  intro w
  have hlooks := hquestion w.toLogged
  change w.host.LooksUp (ofExcept context (question w.toLogged).1
    { w with toLogged := (question w.toLogged).2 }).2.host
  rcases (question w.toLogged).1 with failure | a <;> exact hlooks

end Running

end CommandLine

end PortWarden
