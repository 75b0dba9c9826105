import PortWarden.Proofs.Layers
import PortWarden.Proofs.Senses

/-!
# The outcome of laying an environment over a configuration

The variables are read one after the other, and the first value that is refused ends the reading, so
that no name behind it is asked for. If none is refused, each setting is what the value of its
variable means, or stays without a value, and only the configuration with all of them is judged.
-/

namespace PortWarden

open PortWarden.Text

namespace Variable

/-- The variables in the order in which they are read, and what kind of values each of them has. -/
def kinds : List (String × Kind) :=
  [("AVAILABLE_PORT_LOWER_BOUND", .number maxUInt16),
    ("AVAILABLE_PORT_UPPER_BOUND", .number maxUInt16),
    ("AVAILABLE_PORT_MEMBERSHIP_RANGE", .membershipRange),
    ("AVAILABLE_PORT_MCAST_ADDRESS", .address),
    ("AVAILABLE_PORT_BIND_ADDRESS", .address),
    ("AVAILABLE_PORT_TIMEOUT", .number maxUInt64),
    ("AVAILABLE_PORT_FAST_RANDOM", .flag),
    ("AVAILABLE_PORT_LINK_LOCAL_WORKAROUND", .flag),
    ("AVAILABLE_PORT_RANDOM_ATTEMPT_LIMIT", .number maxUInt64),
    ("AVAILABLE_PORT_MCAST_INTERFACE", .interface)]

/-- A variable has a value that is refused with a certain failure. -/
def Offends (ask : String → Lookup) (env : Environment) (entry : String × Kind)
    (failure : Failure) : Prop :=
  ∃ value, env entry.1 = some value ∧ entry.2.Refuses ask entry.1 value failure

/-- Of some variables none has a value that is refused. -/
def NoneOffends (ask : String → Lookup) (env : Environment) (entries : List (String × Kind)) :
    Prop :=
  ∀ entry ∈ entries, ∀ failure, ¬Offends ask env entry failure

/-- The names that are asked for to read the values of some variables. -/
inductive AsksForAll (env : Environment) : List (String × Kind) → List String → Prop where
  /-- No variable asks for nothing. -/
  | nil : AsksForAll env [] []
  /-- Without a value nothing is asked for. -/
  | unset {entry : String × Kind} {entries : List (String × Kind)} {names : List String}
      (hvalue : env entry.1 = none) (hrest : AsksForAll env entries names) :
      AsksForAll env (entry :: entries) names
  /-- The names for a value come before those for the values of later variables. -/
  | set {entry : String × Kind} {entries : List (String × Kind)} {value : String}
      {first names : List String} (hvalue : env entry.1 = some value)
      (hfirst : entry.2.Asks value first) (hrest : AsksForAll env entries names) :
      AsksForAll env (entry :: entries) (first ++ names)

/-- A variable whose values are read as its kind says. -/
structure ReadAs (v : Variable) (entry : String × Kind) : Prop where
  /-- The variable has this name. -/
  key : v.key = entry.1
  /-- It refuses what its kind refuses. -/
  error_iff : ∀ value (w : Logged Host) failure, (v.read value w).1 = .error failure ↔
    entry.2.Refuses w.state.answer entry.1 value failure
  /-- It asks for what its kind asks for. -/
  asked : ∀ value (w : Logged Host), ∃ names, entry.2.Asks value names ∧
    (v.read value w).2.state = w.state.afterAsking names

/-- A variable is read as its reader reads. -/
theorem readAs_setting {α : Type} {key : String} {kind : Kind}
    {read : String → String → Configuring α} {store : α → Config → Config}
    {means : String → Logged Host → α → Prop}
    (hread : ∀ value w, Reads (read key value) w (means value w)
      (kind.Refuses w.state.answer key value) (kind.Asks value)) :
    (setting key read store).ReadAs (key, kind) := by
  have hrun (value : String) (w : Logged Host) : (setting key read store).read value w =
      (((read key value) w).1.map store, ((read key value) w).2) := by
    have hchain : (setting key read store).read value =
        read key value >>= fun a => pure (store a) := (bind_pure_comp _ _).symm
    rw [hchain, chain_apply]
    rcases read key value w with ⟨_ | a, m⟩ <;> rfl
  constructor
  case key => rfl
  case error_iff =>
    intro value w failure
    rw [hrun, ← (hread value w).error_iff]
    rcases read key value w with ⟨_ | a, m⟩ <;> simp [Except.map]
  case asked =>
    intro value w
    rw [hrun]
    exact (hread value w).asked

/-- Ports are numbers of 16 bits. -/
theorem reads_port {key value : String} {w : Logged Host} :
    Reads (readValue (readUInt16 · |>.toOption) key value) w (fun n => NumberIn value n.toNat)
      ((Kind.number maxUInt16).Refuses w.state.answer key value)
      ((Kind.number maxUInt16).Asks value) :=
  reads_number (fun _ => readUInt16_trim_iff) (fun n => Nat.le_of_lt_succ n.toNat_lt)
    fun n hn => ⟨.ofNat n, UInt16.toNat_ofNat_of_lt' (Nat.lt_succ_of_le hn)⟩

/-- Times and limits are numbers of 64 bits. -/
theorem reads_long {key value : String} {w : Logged Host} :
    Reads (readValue (readUInt64 · |>.toOption) key value) w (fun n => NumberIn value n.toNat)
      ((Kind.number maxUInt64).Refuses w.state.answer key value)
      ((Kind.number maxUInt64).Asks value) :=
  reads_number (fun _ => readUInt64_trim_iff) (fun n => Nat.le_of_lt_succ n.toNat_lt)
    fun n hn => ⟨.ofNat n, UInt64.toNat_ofNat_of_lt' (Nat.lt_succ_of_le hn)⟩

/-- Every variable is read as its kind says. -/
theorem forall₂_readAs : List.Forall₂ ReadAs all kinds := by
  refine .cons ?_ <| .cons ?_ <| .cons ?_ <| .cons ?_ <| .cons ?_ <| .cons ?_ <| .cons ?_ <|
    .cons ?_ <| .cons ?_ <| .cons ?_ .nil
  case refine_1 | refine_2 => exact readAs_setting fun _ _ => reads_port
  case refine_3 => exact readAs_setting fun _ _ => reads_membershipRange
  case refine_4 | refine_5 => exact readAs_setting fun _ _ => reads_address
  case refine_6 | refine_9 => exact readAs_setting fun _ _ => reads_long
  case refine_7 | refine_8 => exact readAs_setting fun _ _ => reads_flag
  case refine_10 => exact readAs_setting fun _ _ => reads_interface

/-- What a variable comes to whose value, if it has one, is not refused. -/
theorem ReadAs.apply_ok {v : Variable} {entry : String × Kind} (hv : v.ReadAs entry)
    {env : Environment} {w : Logged Host}
    (hnone : ∀ failure, ¬Offends w.state.answer env entry failure) (c : Config) :
    ∃ d w' names, v.apply env c w = (.ok d, w') ∧ AsksForAll env [entry] names ∧
      w'.state = w.state.afterAsking names := by
  unfold apply
  rw [hv.key]
  cases hvalue : env entry.1 with
  | none => exact ⟨c, w, [], rfl, .unset hvalue .nil, rfl⟩
  | some value =>
    obtain ⟨names, hasks, hstate⟩ := hv.asked value w
    simp only [chain_apply]
    rcases hrun : v.read value w with ⟨failure | change, w'⟩ <;> rw [hrun] at hstate
    · refine absurd ⟨value, hvalue, ?_⟩ (hnone failure)
      exact (hv.error_iff value w failure).mp (by rw [hrun])
    · refine ⟨change c, w', names, rfl, ?_, hstate⟩
      simpa using AsksForAll.set hvalue hasks .nil

/-- What a variable comes to whose value is refused. -/
theorem ReadAs.apply_error {v : Variable} {entry : String × Kind} (hv : v.ReadAs entry)
    {env : Environment} {w : Logged Host} {failure : Failure}
    (hoffends : Offends w.state.answer env entry failure) (c : Config) :
    ∃ w' names, v.apply env c w = (.error failure, w') ∧ AsksForAll env [entry] names ∧
      w'.state = w.state.afterAsking names := by
  obtain ⟨value, hvalue, hrefuses⟩ := hoffends
  obtain ⟨names, hasks, hstate⟩ := hv.asked value w
  have herror := (hv.error_iff value w failure).mpr hrefuses
  refine ⟨(v.read value w).2, names, ?_, by simpa using AsksForAll.set hvalue hasks .nil, hstate⟩
  unfold apply
  rw [hv.key, hvalue]
  simp only [chain_apply]
  rcases hrun : v.read value w with ⟨failure' | change, w'⟩ <;> rw [hrun] at herror <;>
    cases herror
  rfl

/-- The names for some variables come before those for later ones. -/
theorem AsksForAll.append {env : Environment} {entries more : List (String × Kind)}
    {names names' : List String} (hentries : AsksForAll env entries names)
    (hmore : AsksForAll env more names') : AsksForAll env (entries ++ more) (names ++ names') := by
  induction hentries with
  | nil => exact hmore
  | unset hvalue _ ih => exact .unset hvalue ih
  | set hvalue hfirst _ ih =>
    rw [List.append_assoc]
    exact .set hvalue hfirst ih

end Variable

namespace Host

/-- What is asked for later comes behind what was asked for before. -/
theorem afterAsking_append (h : Host) (names names' : List String) :
    (h.afterAsking names).afterAsking names' = h.afterAsking (names ++ names') := by
  simp [afterAsking]

/-- Asking does not change the answers. -/
theorem answer_afterAsking (h : Host) (names : List String) :
    (h.afterAsking names).answer = h.answer := rfl

end Host

namespace Config

open Variable

/-- Variables whose values are not refused are all read, and what follows is read after them. -/
theorem assignAll_append {env : Environment} {vs : List Variable} {entries : List (String × Kind)}
    (hvs : List.Forall₂ ReadAs vs entries) {w : Logged Host}
    (hnone : NoneOffends w.state.answer env entries) (c : Config) :
    ∃ d w' names, AsksForAll env entries names ∧ w'.state = w.state.afterAsking names ∧
      ∀ rest, assignAll env (vs ++ rest) c w = assignAll env rest d w' := by
  induction hvs generalizing c w with
  | nil => exact ⟨c, w, [], .nil, rfl, fun _ => rfl⟩
  | @cons v entry vs entries hv _ ih =>
    obtain ⟨hfirst, hothers⟩ := List.forall_mem_cons.mp hnone
    obtain ⟨d, m, names, hrun, hasks, hstate⟩ := hv.apply_ok hfirst c
    have hnone' : NoneOffends m.state.answer env entries := by
      rw [hstate, Host.answer_afterAsking]
      exact hothers
    obtain ⟨e, w', names', hasks', hstate', hrest⟩ := ih hnone' d
    refine ⟨e, w', names ++ names', hasks.append hasks', ?_, fun rest => ?_⟩
    · rw [hstate', hstate, Host.afterAsking_append]
    · rw [List.cons_append, assignAll, chain_apply, hrun]
      exact hrest rest

/-- If no value is refused, the variables give a configuration. -/
theorem assignAll_of_noneOffends {env : Environment} {vs : List Variable}
    {entries : List (String × Kind)} (hvs : List.Forall₂ ReadAs vs entries) {w : Logged Host}
    (hnone : NoneOffends w.state.answer env entries) (c : Config) :
    ∃ d w' names, assignAll env vs c w = (.ok d, w') ∧ AsksForAll env entries names ∧
      w'.state = w.state.afterAsking names := by
  obtain ⟨d, w', names, hasks, hstate, hrest⟩ := assignAll_append hvs hnone c
  have hrun := hrest []
  rw [List.append_nil] at hrun
  exact ⟨d, w', names, hrun, hasks, hstate⟩

/-- The first value that is refused ends the reading. -/
theorem assignAll_of_offends {env : Environment} {vs : List Variable}
    {before after : List (String × Kind)} {entry : String × Kind} {failure : Failure}
    (hvs : List.Forall₂ ReadAs vs (before ++ entry :: after)) {w : Logged Host}
    (hnone : NoneOffends w.state.answer env before)
    (hoffends : Offends w.state.answer env entry failure) (c : Config) :
    ∃ w' names, assignAll env vs c w = (.error failure, w') ∧
      AsksForAll env (before ++ [entry]) names ∧ w'.state = w.state.afterAsking names := by
  have hfront := List.forall₂_take_append vs before (entry :: after) hvs
  obtain ⟨v, rest, hv, -, hback⟩ :=
    List.forall₂_cons_right_iff.mp (List.forall₂_drop_append vs before (entry :: after) hvs)
  obtain ⟨d, m, names, hasks, hstate, hrest⟩ := assignAll_append hfront hnone c
  have hoffends' : Offends m.state.answer env entry failure := by
    rw [hstate, Host.answer_afterAsking]
    exact hoffends
  obtain ⟨w', names', hrun, hasks', hstate'⟩ := hv.apply_error hoffends' d
  refine ⟨w', names ++ names', ?_, hasks.append hasks', ?_⟩
  · have hsplit := hrest (v :: rest)
    rw [← hback, List.take_append_drop] at hsplit
    rw [hsplit, hback, assignAll, chain_apply, hrun]
  · rw [hstate', hstate, Host.afterAsking_append]

/-! ## The configuration that results -/

/-- What a value means is given as a setting that may be left out. -/
def GivenAs {α : Type} (means : String → α → Prop) (value : String) (setting : Option α) : Prop :=
  ∃ a, setting = some a ∧ means value a

/-- The configuration that an environment makes of another one, where `ask` answers for names. -/
structure Combined (ask : String → Lookup) (env : Environment) (c d : Config) : Prop where
  /-- The lower bound of the general range. -/
  lower : Sets (env "AVAILABLE_PORT_LOWER_BOUND") (fun value n => NumberIn value n.toNat)
    c.range.lower d.range.lower
  /-- The upper bound of the general range. -/
  upper : Sets (env "AVAILABLE_PORT_UPPER_BOUND") (fun value n => NumberIn value n.toNat)
    c.range.upper d.range.upper
  /-- The membership range. -/
  membershipRange : Sets (env "AVAILABLE_PORT_MEMBERSHIP_RANGE") MembershipIn
    c.membershipRange d.membershipRange
  /-- The multicast group. -/
  group : Sets (env "AVAILABLE_PORT_MCAST_ADDRESS")
    (GivenAs fun value a => ResolvesTo ask value (.ok a)) c.group d.group
  /-- The address for stream ports. -/
  bindAddress : Sets (env "AVAILABLE_PORT_BIND_ADDRESS")
    (GivenAs fun value a => ResolvesTo ask value (.ok a)) c.bindAddress d.bindAddress
  /-- The time to wait for an answer. -/
  timeout : Sets (env "AVAILABLE_PORT_TIMEOUT") (fun value n => NumberIn value n.toNat)
    c.timeout d.timeout
  /-- The kind of generator. -/
  fastRandom : Sets (env "AVAILABLE_PORT_FAST_RANDOM") FlagIn c.fastRandom d.fastRandom
  /-- Whether failing link-local addresses count as free. -/
  linkLocalWorkaround : Sets (env "AVAILABLE_PORT_LINK_LOCAL_WORKAROUND") FlagIn
    c.linkLocalWorkaround d.linkLocalWorkaround
  /-- The limit of attempts. -/
  attemptLimit : Sets (env "AVAILABLE_PORT_RANDOM_ATTEMPT_LIMIT")
    (GivenAs fun value n => NumberIn value n.toNat) c.attemptLimit d.attemptLimit
  /-- The interface for messages to IPv4 groups. -/
  multicastInterface : Sets (env "AVAILABLE_PORT_MCAST_INTERFACE") (GivenAs InterfaceIn)
    c.multicastInterface d.multicastInterface

/-- What is given is determined if only one thing is meant by a value. -/
theorem GivenAs.unique {α : Type} {means : String → α → Prop} {value : String}
    (hmeans : ∀ a b, means value a → means value b → a = b) (x y : Option α)
    (hx : GivenAs means value x) (hy : GivenAs means value y) : x = y := by
  obtain ⟨a, rfl, ha⟩ := hx
  obtain ⟨b, rfl, hb⟩ := hy
  rw [hmeans a b ha hb]

/-- An environment makes one configuration at most of another one. -/
theorem Combined.unique {h : Host} {env : Environment} {c d d' : Config}
    (hd : Combined h.answer env c d) (hd' : Combined h.answer env c d') : d = d' := by
  have hport (value : String) (n m : UInt16) (hn : NumberIn value n.toNat)
      (hm : NumberIn value m.toNat) : n = m :=
    Option.some.inj ((readUInt16_trim_iff.mpr hn).symm.trans (readUInt16_trim_iff.mpr hm))
  have hlong (value : String) (n m : UInt64) (hn : NumberIn value n.toNat)
      (hm : NumberIn value m.toNat) : n = m :=
    Option.some.inj ((readUInt64_trim_iff.mpr hn).symm.trans (readUInt64_trim_iff.mpr hm))
  have hflag (value : String) (b b' : Bool) (hb : FlagIn value b) (hb' : FlagIn value b') :
      b = b' :=
    Option.some.inj ((flag?_trim_iff.mpr hb).symm.trans (flag?_trim_iff.mpr hb'))
  have hmembership (value : String) (r r' : PortRange) (hr : MembershipIn value r)
      (hr' : MembershipIn value r') : r = r' :=
    (membershipIn_iff.mp hr).symm.trans (membershipIn_iff.mp hr')
  have hinterface (value : String) (a b : IPv4) (ha : InterfaceIn value a)
      (hb : InterfaceIn value b) : a = b :=
    Option.some.inj ((readIPv4_trim_iff.mpr ha).symm.trans (readIPv4_trim_iff.mpr hb))
  have haddress (value : String) (a b : Address) (ha : ResolvesTo h.answer value (.ok a))
      (hb : ResolvesTo h.answer value (.ok b)) : a = b :=
    Except.ok.inj ((Host.resolve_fst_eq_iff.mpr ha).symm.trans (Host.resolve_fst_eq_iff.mpr hb))
  have hlower := hd.lower.unique hport hd'.lower
  have hupper := hd.upper.unique hport hd'.upper
  have hmembershipRange := hd.membershipRange.unique hmembership hd'.membershipRange
  have hgroup := hd.group.unique (fun value => GivenAs.unique (haddress value)) hd'.group
  have hbind := hd.bindAddress.unique (fun value => GivenAs.unique (haddress value))
    hd'.bindAddress
  have htimeout := hd.timeout.unique hlong hd'.timeout
  have hfast := hd.fastRandom.unique hflag hd'.fastRandom
  have hworkaround := hd.linkLocalWorkaround.unique hflag hd'.linkLocalWorkaround
  have hlimit := hd.attemptLimit.unique (fun value => GivenAs.unique (hlong value))
    hd'.attemptLimit
  have hvia := hd.multicastInterface.unique (fun value => GivenAs.unique (hinterface value))
    hd'.multicastInterface
  obtain ⟨⟨_, _⟩⟩ := d
  obtain ⟨⟨_, _⟩⟩ := d'
  simp only [Config.mk.injEq, PortRange.mk.injEq]
  exact ⟨⟨hlower, hupper⟩, hmembershipRange, hgroup, hbind, htimeout, hfast, hworkaround, hlimit,
    hvia⟩

/-- The change of all variables makes the configuration that results. -/
theorem combined_of_change {names : KnownNames} {env : Environment} {f : Config → Config}
    (hf : change names env Variable.all = .ok f) (c : Config) :
    Combined (Host.answer { names }) env c (f c) := by
  have haddress (value : String) (a : Address)
      (hrun : (readAddress value { state := { names } }).1 = .ok a) :
      GivenAs (fun value a => ResolvesTo (Host.answer { names }) value (.ok a)) value (some a) :=
    ⟨a, rfl, Host.resolve_fst_eq_iff.mp hrun⟩
  have hmembership (value : String) (r : PortRange)
      (hrun : (readMembershipRange value { state := { names } }).1 = .ok r) :
      MembershipIn value r := by
    rw [readMembershipRange_fst] at hrun
    exact membershipIn_iff.mpr (Except.ok.inj hrun)
  have hlower : Variable.lowerBound.Means names (·.range.lower) fun value n =>
      NumberIn value n.toNat :=
    means_setting (fun _ n => (reads_port.ok_iff n).mp) fun _ _ => rfl
  have hupper : Variable.upperBound.Means names (·.range.upper) fun value n =>
      NumberIn value n.toNat :=
    means_setting (fun _ n => (reads_port.ok_iff n).mp) fun _ _ => rfl
  have hmembershipRange : Variable.membershipRange.Means names (·.membershipRange) MembershipIn :=
    means_setting hmembership fun _ _ => rfl
  have hgroup : Variable.group.Means names (·.group)
      (GivenAs fun value a => ResolvesTo (Host.answer { names }) value (.ok a)) :=
    means_setting haddress fun _ _ => rfl
  have hbind : Variable.bindAddress.Means names (·.bindAddress)
      (GivenAs fun value a => ResolvesTo (Host.answer { names }) value (.ok a)) :=
    means_setting haddress fun _ _ => rfl
  have htimeout : Variable.timeout.Means names (·.timeout) fun value n =>
      NumberIn value n.toNat :=
    means_setting (fun _ n => (reads_long.ok_iff n).mp) fun _ _ => rfl
  have hfast : Variable.fastRandom.Means names (·.fastRandom) FlagIn :=
    means_setting (fun _ b => (reads_flag.ok_iff b).mp) fun _ _ => rfl
  have hworkaround : Variable.linkLocalWorkaround.Means names (·.linkLocalWorkaround) FlagIn :=
    means_setting (fun _ b => (reads_flag.ok_iff b).mp) fun _ _ => rfl
  have hlimit : Variable.attemptLimit.Means names (·.attemptLimit)
      (GivenAs fun value n => NumberIn value n.toNat) :=
    means_setting (fun _ n hrun => ⟨n, rfl, (reads_long.ok_iff n).mp hrun⟩) fun _ _ => rfl
  have hvia : Variable.multicastInterface.Means names (·.multicastInterface)
      (GivenAs InterfaceIn) :=
    means_setting (fun _ a hrun => ⟨a, rfl, (reads_interface.ok_iff a).mp hrun⟩) fun _ _ => rfl
  -- the variables stand in this order, so that as many stand before each as the lists have places
  refine ⟨sets_of_change _ [] hlower ?_ ?_ hf c, sets_of_change _ [_] hupper ?_ ?_ hf c,
    sets_of_change _ [_, _] hmembershipRange ?_ ?_ hf c,
    sets_of_change _ [_, _, _] hgroup ?_ ?_ hf c,
    sets_of_change _ [_, _, _, _] hbind ?_ ?_ hf c,
    sets_of_change _ [_, _, _, _, _] htimeout ?_ ?_ hf c,
    sets_of_change _ [_, _, _, _, _, _] hfast ?_ ?_ hf c,
    sets_of_change _ [_, _, _, _, _, _, _] hworkaround ?_ ?_ hf c,
    sets_of_change _ [_, _, _, _, _, _, _, _] hlimit ?_ ?_ hf c,
    sets_of_change _ [_, _, _, _, _, _, _, _, _] hvia ?_ ?_ hf c⟩ <;>
    simp only [List.Forall] <;> and_intros <;> exact spares_setting fun _ _ => rfl

/-! ## Outcomes -/

/-- Of variables of which one offends there is a first that does. -/
theorem exists_first_offence {ask : String → Lookup} {env : Environment}
    {entries : List (String × Kind)} (hsome : ¬NoneOffends ask env entries) :
    ∃ before entry after failure, entries = before ++ entry :: after ∧
      NoneOffends ask env before ∧ Offends ask env entry failure := by
  induction entries with
  | nil => exact absurd (fun _ hentry => absurd hentry List.not_mem_nil) hsome
  | cons entry entries ih =>
    by_cases hfirst : ∃ failure, Offends ask env entry failure
    · obtain ⟨failure, hoffends⟩ := hfirst
      exact ⟨[], entry, entries, failure, rfl, fun _ h => absurd h List.not_mem_nil, hoffends⟩
    · have hquiet : ∀ failure, ¬Offends ask env entry failure := fun failure hoffends =>
        hfirst ⟨failure, hoffends⟩
      obtain ⟨before, later, after, failure, rfl, hnone, hoffends⟩ := ih fun hrest =>
        hsome (List.forall_mem_cons.mpr ⟨hquiet, hrest⟩)
      exact ⟨entry :: before, later, after, failure, rfl, List.forall_mem_cons.mpr ⟨hquiet, hnone⟩,
        hoffends⟩

/-- What laying an environment over a configuration comes to. -/
structure Outcome (c : Config) (env : Environment) (w : Logged Host) : Prop where
  /-- It gives the configuration that the environment makes of the other one, exactly if no value is
  refused and that configuration is valid, whether or not the other one is. -/
  ok_iff : ∀ d, (c.overlay env w).1 = .ok d ↔
    NoneOffends w.state.answer env kinds ∧ Combined w.state.answer env c d ∧ d.Valid
  /-- It fails exactly if a value is refused, or if none is and the configuration is not valid. -/
  error_iff : (∃ failure, (c.overlay env w).1 = .error failure) ↔
    (∃ entry ∈ kinds, ∃ failure, Offends w.state.answer env entry failure) ∨
      NoneOffends w.state.answer env kinds ∧ ∃ d, Combined w.state.answer env c d ∧ ¬d.Valid
  /-- The first value that is refused is the failure, and only names for the values up to it are
  asked for. -/
  refused : ∀ before entry after failure, kinds = before ++ entry :: after →
    NoneOffends w.state.answer env before → Offends w.state.answer env entry failure →
    (c.overlay env w).1 = .error failure ∧
      ∃ names, AsksForAll env (before ++ [entry]) names ∧
        (c.overlay env w).2.state = w.state.afterAsking names
  /-- If none is refused, the one configuration that the environment makes is judged, and the names
  for all values are asked for. -/
  judged : NoneOffends w.state.answer env kinds → ∃ d, Combined w.state.answer env c d ∧
    (∀ d', Combined w.state.answer env c d' → d' = d) ∧ (c.overlay env w).1 = d.check ∧
      ∃ names, AsksForAll env kinds names ∧
        (c.overlay env w).2.state = w.state.afterAsking names
  /-- A value of the variable for the membership range that makes no sense is never refused, and
  gives the default one. -/
  membership : ∀ value, env "AVAILABLE_PORT_MEMBERSHIP_RANGE" = some value →
    (∀ r, ¬RangeIn value r) →
    (∀ failure, ¬Offends w.state.answer env
      ("AVAILABLE_PORT_MEMBERSHIP_RANGE", .membershipRange) failure) ∧
      ∀ d, (c.overlay env w).1 = .ok d → d.membershipRange = defaultMembershipRange

/-- The first value that is refused is the failure. -/
theorem overlay_of_offends {c : Config} {env : Environment} {w : Logged Host}
    {before after : List (String × Kind)} {entry : String × Kind} {failure : Failure}
    (hkinds : kinds = before ++ entry :: after) (hnone : NoneOffends w.state.answer env before)
    (hoffends : Offends w.state.answer env entry failure) :
    (c.overlay env w).1 = .error failure ∧ ∃ names, AsksForAll env (before ++ [entry]) names ∧
      (c.overlay env w).2.state = w.state.afterAsking names := by
  have hvs := forall₂_readAs
  rw [hkinds] at hvs
  obtain ⟨w', names, hrun, hasks, hstate⟩ := assignAll_of_offends hvs hnone hoffends c
  rw [overlay, chain_apply, hrun]
  exact ⟨rfl, names, hasks, hstate⟩

/-- If no value is refused, the configuration that results is judged. -/
theorem overlay_of_noneOffends {c : Config} {env : Environment} {w : Logged Host}
    (hnone : NoneOffends w.state.answer env kinds) :
    ∃ d, Combined w.state.answer env c d ∧ (c.overlay env w).1 = d.check ∧
      ∃ names, AsksForAll env kinds names ∧
        (c.overlay env w).2.state = w.state.afterAsking names := by
  obtain ⟨d, w', names, hrun, hasks, hstate⟩ := assignAll_of_noneOffends forall₂_readAs hnone c
  have hanswer := (assignAll_byNames env Variable.byNames_of_mem_all c w).1
  rw [hrun] at hanswer
  obtain ⟨f, hf, rfl⟩ : ∃ f, change w.state.names env Variable.all = .ok f ∧ f c = d := by
    rcases hf : change w.state.names env Variable.all with failure | f <;> rw [hf] at hanswer <;>
      cases hanswer
    exact ⟨f, rfl, rfl⟩
  refine ⟨f c, combined_of_change hf c, ?_⟩
  rw [overlay, chain_apply, hrun]
  dsimp only
  rcases (f c).check with failure | e <;> exact ⟨rfl, names, hasks, hstate⟩

/-- An environment gives the configuration that it makes of another one, if no value is refused and
that configuration is valid. -/
theorem overlay_eq_ok_iff {c d : Config} {env : Environment} {w : Logged Host} :
    (c.overlay env w).1 = .ok d ↔
      NoneOffends w.state.answer env kinds ∧ Combined w.state.answer env c d ∧ d.Valid := by
  by_cases hnone : NoneOffends w.state.answer env kinds
  · obtain ⟨d', hd', hrun, -⟩ := @overlay_of_noneOffends c env w hnone
    rw [hrun, check_eq_ok_iff]
    constructor
    · rintro ⟨rfl, hvalid⟩
      exact ⟨hnone, hd', hvalid⟩
    · rintro ⟨-, hd, hvalid⟩
      obtain rfl := hd.unique hd'
      exact ⟨rfl, hvalid⟩
  · obtain ⟨before, entry, after, failure, hkinds, hbefore, hoffends⟩ :=
      exists_first_offence hnone
    rw [(overlay_of_offends hkinds hbefore hoffends).1]
    exact ⟨fun h => (by cases h), fun h => absurd h.1 hnone⟩

/-- An environment fails if a value is refused, or if the configuration that it makes is not
valid. -/
theorem exists_overlay_eq_error_iff {c : Config} {env : Environment} {w : Logged Host} :
    (∃ failure, (c.overlay env w).1 = .error failure) ↔
      (∃ entry ∈ kinds, ∃ failure, Offends w.state.answer env entry failure) ∨
        NoneOffends w.state.answer env kinds ∧
          ∃ d, Combined w.state.answer env c d ∧ ¬d.Valid := by
  by_cases hnone : NoneOffends w.state.answer env kinds
  · obtain ⟨d, hd, hrun, -⟩ := @overlay_of_noneOffends c env w hnone
    rw [hrun, exists_check_eq_error_iff]
    constructor
    · exact fun hinvalid => .inr ⟨hnone, d, hd, hinvalid⟩
    · rintro (⟨entry, hentry, failure, hoffends⟩ | ⟨-, d', hd', hinvalid⟩)
      · exact absurd hoffends (hnone entry hentry failure)
      · rwa [hd.unique hd']
  · obtain ⟨before, entry, after, failure, hkinds, hbefore, hoffends⟩ :=
      exists_first_offence hnone
    have hmem : entry ∈ kinds := by
      rw [hkinds]
      exact List.mem_append_right _ List.mem_cons_self
    exact ⟨fun _ => .inl ⟨entry, hmem, failure, hoffends⟩,
      fun _ => ⟨failure, (overlay_of_offends hkinds hbefore hoffends).1⟩⟩

/-- Laying an environment over a configuration comes to what the values mean. -/
theorem overlay_outcome (c : Config) (env : Environment) (w : Logged Host) :
    Outcome c env w := by
  constructor
  case ok_iff => exact fun d => overlay_eq_ok_iff
  case error_iff => exact exists_overlay_eq_error_iff
  case refused => exact fun _ _ _ _ => overlay_of_offends
  case judged =>
    intro hnone
    obtain ⟨d, hd, hrest⟩ := overlay_of_noneOffends hnone
    exact ⟨d, hd, fun d' hd' => hd'.unique hd, hrest⟩
  case membership =>
    intro value hvalue hsenseless
    refine ⟨fun failure ⟨_, _, hrefuses⟩ => (by cases hrefuses), fun d hrun => ?_⟩
    obtain ⟨-, hd, -⟩ := overlay_eq_ok_iff.mp hrun
    have hrange := hd.membershipRange
    rw [hvalue] at hrange
    generalize d.membershipRange = range at hrange ⊢
    cases hrange with
    | range hr => exact absurd hr (hsenseless _)
    | default => rfl

/-- A range that is out of order is put right by one bound, while a membership range that makes no
sense gives the default one. A group that nobody knows is the failure, although the time behind it
is no number either, and the name of the address between them is not asked for. -/
theorem overlay_outcome_on_range_and_group :
    let c : Config := { range := ⟨25000, 0⟩, membershipRange := ⟨0, 0⟩ }
    let d : Config := { range := ⟨25000, 26000⟩ }
    let repaired : Environment := fun key =>
      if key = "AVAILABLE_PORT_UPPER_BOUND" then some " +26000"
      else if key = "AVAILABLE_PORT_MEMBERSHIP_RANGE" then some "9-8" else none
    let unknown : Environment := fun key =>
      if key = "AVAILABLE_PORT_MCAST_ADDRESS" then some "nowhere"
      else if key = "AVAILABLE_PORT_BIND_ADDRESS" then some "printer"
      else if key = "AVAILABLE_PORT_TIMEOUT" then some "soon" else none
    let w : Logged Host := { state := { names := [("printer", .ok [some (.v4 ⟨10, 0, 0, 9⟩)])] } }
    (¬c.Valid ∧ (c.overlay repaired w).1 = .ok d ∧ Combined w.state.answer repaired c d ∧
      d.Valid) ∧
      (c.overlay unknown w).1 = .error (.resolution (.lookup "nowhere" .unknownName)) ∧
      (c.overlay unknown w).2.state.calls = [⟨none, .resolve "nowhere", none⟩] := by
  intro c d repaired unknown w
  have hrun : (c.overlay repaired w).1 = .ok d := rfl
  obtain ⟨-, hd, hvalid⟩ := ((overlay_outcome c repaired w).ok_iff d).mp hrun
  have hplain : ¬IsAddressChar 'w' := by
    unfold IsAddressChar
    decide
  have hnone (a : Address) : ¬Spells "nowhere" a := fun ⟨core, hcore, hpadded⟩ =>
    hplain (hcore.isAddressChar 'w' ((hpadded.mem_iff (by decide)).mp (by decide)))
  have hoffends : Offends w.state.answer unknown ("AVAILABLE_PORT_MCAST_ADDRESS", .address)
      (.resolution (.lookup "nowhere" .unknownName)) :=
    ⟨"nowhere", rfl, .address (.named hnone (by decide) (.fault .unknownName))⟩
  have hbefore : NoneOffends w.state.answer unknown (kinds.take 3) := by
    rintro entry hentry failure ⟨value, hvalue, -⟩
    have hunset : ∀ entry ∈ kinds.take 3, unknown entry.1 = none := by decide
    rw [hunset entry hentry] at hvalue
    cases hvalue
  obtain ⟨hfailure, -⟩ :=
    (overlay_outcome c unknown w).refused _ _ (kinds.drop 4) _ rfl hbefore hoffends
  exact ⟨⟨fun hc => absurd hc.membershipRange.lower_ne (by decide), hrun, hd, hvalid⟩, hfailure,
    rfl⟩

end Config

end PortWarden
