import PortWarden.Proofs.MembershipText
import PortWarden.Proofs.Overlay
import PortWarden.Proofs.Resolution

/-!
# What the values of variables mean

A value is a number, a truth value, an address, an interface or a membership range with blanks
around it. What is read of it is what it means, and a value without a meaning is refused, unless it
is that of the membership range.
-/

namespace PortWarden

open PortWarden.Text

namespace Variable

/-! ## Meanings -/

/-- A value that consists of a number and of blanks around it. -/
def NumberIn (value : String) (n : Nat) : Prop :=
  ∃ core, SignedNumeral core n ∧ Padded core value.toList

/-- The words for a truth value, in small letters. Nothing is one for what is false. -/
def words : Bool → List (List Char)
  | true => ["true".toList, "1".toList, "yes".toList, "on".toList]
  | false => ["false".toList, "0".toList, "no".toList, "off".toList, []]

/-- A value that consists of a word for a truth value, in any mixture of capitals and small letters,
and of blanks around it. -/
def FlagIn (value : String) (b : Bool) : Prop :=
  ∃ word, word.map Char.toLower ∈ words b ∧ Padded word value.toList

/-- A value that consists of an IPv4 address and of blanks around it. -/
def InterfaceIn (value : String) (a : IPv4) : Prop := Padded a.chars value.toList

/-- A value that spells a usable range without plus signs. -/
structure RangeIn (value : String) (r : PortRange) : Prop where
  /-- The value holds no plus sign. -/
  no_plus : '+' ∉ value.toList
  /-- It spells the range. -/
  spelled : r.SpelledBy value.toList
  /-- The range leaves port 0 out. -/
  one_le : 1 ≤ r.lower
  /-- Its bounds are in order. -/
  lower_le : r.lower ≤ r.upper

/-- The membership range for a value. -/
inductive MembershipIn (value : String) : PortRange → Prop where
  /-- It is the range that the value spells. -/
  | range {r : PortRange} (hr : RangeIn value r) : MembershipIn value r
  /-- It is the default one if the value spells none. -/
  | default (hnone : ∀ r, ¬RangeIn value r) : MembershipIn value defaultMembershipRange

/-! ## Kinds of values -/

/-- What kind of values a variable has. -/
inductive Kind where
  /-- A number up to a bound. -/
  | number (bound : Nat)
  /-- A truth value. -/
  | flag
  /-- An address or a name. -/
  | address
  /-- An IPv4 address. -/
  | interface
  /-- A membership range. -/
  | membershipRange
  deriving DecidableEq, Repr

/-- The failures with which a value of a kind is refused, where `ask` answers for names. A
membership range never is. -/
inductive Kind.Refuses (ask : String → Lookup) (key value : String) : Kind → Failure → Prop where
  /-- The value is no number up to the bound. -/
  | number {bound : Nat} (hnone : ∀ n ≤ bound, ¬NumberIn value n) :
      Refuses ask key value (.number bound) (.config (.invalidValue key value))
  /-- The value is no truth value. -/
  | flag (hnone : ∀ b, ¬FlagIn value b) :
      Refuses ask key value .flag (.config (.notBoolean key value))
  /-- The value resolves to no address. -/
  | address {failure : Failure} (hfails : ResolvesTo ask value (.error failure)) :
      Refuses ask key value .address failure
  /-- The value is no IPv4 address. -/
  | interface (hnone : ∀ a, ¬InterfaceIn value a) :
      Refuses ask key value .interface (.config (.invalidValue key value))

/-- The names that are asked for to read a value of a kind. -/
inductive Kind.Asks (value : String) : Kind → List String → Prop where
  /-- An address may be given by a name. -/
  | address {names : List String} (hnames : AsksFor value names) : Asks value .address names
  /-- Nothing else is. -/
  | other {kind : Kind} (hkind : kind ≠ .address) : Asks value kind []

/-! ## Readers -/

/-- A reading of a value that gives what the value means, or refuses it, and that asks for some
names at most. -/
structure Reads {α : Type} (reading : Configuring α) (w : Logged Host) (means : α → Prop)
    (refuses : Failure → Prop) (asks : List String → Prop) : Prop where
  /-- What the value means is read. -/
  ok_iff : ∀ a, (reading w).1 = .ok a ↔ means a
  /-- A value is refused as it has to be. -/
  error_iff : ∀ failure, (reading w).1 = .error failure ↔ refuses failure
  /-- Nothing but names is asked for. -/
  asked : ∃ names, asks names ∧ (reading w).2.state = w.state.afterAsking names

section

variable {key value : String} {w : Logged Host}

/-- A value that means what a reader finds in it is read without asking, and refused if nothing is
found. -/
theorem Reads.of_option {α : Type} {found? : Option α} {failure : Failure} {reading : Configuring α}
    {means : α → Prop} {refuses : Failure → Prop} {asks : List String → Prop}
    (hsome : ∀ a, found? = some a → reading = pure a)
    (hnone : found? = none → reading = throw failure)
    (hmeans : ∀ a, found? = some a ↔ means a)
    (hrefuses : ∀ f, refuses f ↔ f = failure ∧ ∀ a, ¬means a) (hasks : asks []) :
    Reads reading w means refuses asks := by
  rcases found? with _ | b
  · obtain rfl := hnone rfl
    refine ⟨fun a => ?_, fun f => ?_, [], hasks, rfl⟩
    · rw [← hmeans]
      exact ⟨fun h => (by cases h), fun h => (by cases h)⟩
    · simp only [hrefuses, ← hmeans]
      exact ⟨fun h => (by cases h; simp), fun h => (by cases h.1; rfl)⟩
  · obtain rfl := hsome b rfl
    refine ⟨fun a => ?_, fun f => ?_, [], hasks, rfl⟩
    · rw [← hmeans]
      exact ⟨fun h => (by cases h; rfl), fun h => (by cases h; rfl)⟩
    · simp only [hrefuses, ← hmeans]
      exact ⟨fun h => (by cases h), fun h => absurd rfl (h.2 b)⟩

/-- A text is read as a number of 16 bits exactly if it consists of one and of blanks. -/
theorem readUInt16_trim_iff {n : UInt16} :
    (readUInt16 (trim value.toList)).toOption = some n ↔ NumberIn value n.toNat := by
  rw [toOption_eq_some_iff, readUInt16_eq_ok_iff]
  exact trim_iff fun _ => SignedNumeral.blankless

/-- A text is read as a number of 64 bits exactly if it consists of one and of blanks. -/
theorem readUInt64_trim_iff {n : UInt64} :
    (readUInt64 (trim value.toList)).toOption = some n ↔ NumberIn value n.toNat := by
  rw [toOption_eq_some_iff, readUInt64_eq_ok_iff]
  exact trim_iff fun _ => SignedNumeral.blankless

/-- A text is read as an interface exactly if it consists of an IPv4 address and of blanks. -/
theorem readIPv4_trim_iff {a : IPv4} :
    IPv4.read? (trim value.toList) = some a ↔ InterfaceIn value a := by
  rw [IPv4.read?_eq_some_iff]
  constructor
  · intro htrim
    rw [InterfaceIn, ← htrim]
    exact padded_trim _
  · exact fun hpadded =>
      trim_of_padded hpadded (Address.SpelledBy.blankless (a := .v4 a) rfl)

/-- A word is a truth value exactly if it is one of the words for it. -/
theorem flag?_eq_some_iff {word : List Char} {b : Bool} :
    flag? (String.ofList word) = some b ↔ word.map Char.toLower ∈ words b := by
  have hlower : (lowerCase (String.ofList word)).toList = word.map Char.toLower := by
    simp [lowerCase]
  rw [← hlower, flag?]
  generalize lowerCase (String.ofList word) = small
  constructor
  · intro hflag
    split at hflag <;> cases hflag <;> decide
  · intro hsmall
    rw [← String.ofList_toList (s := small)]
    cases b <;> simp only [words, List.mem_cons, List.not_mem_nil, or_false] at hsmall
    · rcases hsmall with h | h | h | h | h <;> rw [h] <;> rfl
    · rcases hsmall with h | h | h | h <;> rw [h] <;> rfl

/-- A word for a truth value holds no blank. -/
theorem blankless_of_mem_words {word : List Char} {b : Bool}
    (hword : word.map Char.toLower ∈ words b) : Blankless word := by
  intro c hc
  have hsmall : isBlank c.toLower = false := by
    have hwords : ∀ b, ∀ word ∈ words b, Blankless word := by decide
    exact hwords b _ hword _ (List.mem_map_of_mem hc)
  by_cases hupper : c.val ≥ 'A'.val ∧ c.val ≤ 'Z'.val
  · have hrange : 65 ≤ c.toNat ∧ c.toNat ≤ 90 := hupper
    simp only [isBlank, Bool.or_eq_false_iff, Bool.and_eq_false_iff, decide_eq_false_iff_not,
      beq_eq_false_iff_ne]
    omega
  · have hsame : c.toLower = c := dif_neg hupper
    rwa [hsame] at hsmall

/-- What is left of a value without blanks is a truth value exactly if the value means that. -/
theorem flag?_trim_iff {b : Bool} :
    flag? (String.ofList (trim value.toList)) = some b ↔ FlagIn value b := by
  rw [flag?_eq_some_iff]
  exact @trim_iff value.toList (fun word => word.map Char.toLower ∈ words b) fun _ =>
    blankless_of_mem_words

/-- A number is read as what its kind says, if it is kept in a type of all numbers up to the
bound. -/
theorem reads_number {α : Type} {read? : List Char → Option α} {toNat : α → Nat} {bound : Nat}
    (hread : ∀ a, read? (trim value.toList) = some a ↔ NumberIn value (toNat a))
    (hle : ∀ a, toNat a ≤ bound) (honto : ∀ n ≤ bound, ∃ a, toNat a = n) :
    Reads (readValue read? key value) w (fun a => NumberIn value (toNat a))
      ((Kind.number bound).Refuses w.state.answer key value) ((Kind.number bound).Asks value) := by
  refine .of_option (fun a ha => by rw [readValue, ha]) (fun ha => by rw [readValue, ha]) hread
    (fun failure => ?_) (.other (by simp))
  constructor
  · intro h
    cases h with
    | number hnone => exact ⟨rfl, fun a => hnone _ (hle a)⟩
  · rintro ⟨rfl, hnone⟩
    refine .number fun n hn => ?_
    obtain ⟨a, rfl⟩ := honto n hn
    exact hnone a

/-- A truth value is read as its kind says. -/
theorem reads_flag : Reads (readFlag key value) w (FlagIn value)
    (Kind.flag.Refuses w.state.answer key value) (Kind.flag.Asks value) := by
  refine .of_option (fun b hb => by rw [readFlag, hb]) (fun hb => by rw [readFlag, hb])
    (fun _ => flag?_trim_iff) (fun failure => ?_) (.other (by simp))
  constructor
  · intro h
    cases h with
    | flag hnone => exact ⟨rfl, hnone⟩
  · rintro ⟨rfl, hnone⟩
    exact .flag hnone

/-- An interface is read as its kind says. -/
theorem reads_interface : Reads (readValue IPv4.read? key value) w (InterfaceIn value)
    (Kind.interface.Refuses w.state.answer key value) (Kind.interface.Asks value) := by
  refine .of_option (fun a ha => by rw [readValue, ha]) (fun ha => by rw [readValue, ha])
    (fun _ => readIPv4_trim_iff) (fun failure => ?_) (.other (by simp))
  constructor
  · intro h
    cases h with
    | interface hnone => exact ⟨rfl, hnone⟩
  · rintro ⟨rfl, hnone⟩
    exact .interface hnone

/-- An address is read as its kind says. -/
theorem reads_address : Reads (readAddress value) w
    (fun a => ResolvesTo w.state.answer value (.ok a))
    (Kind.address.Refuses w.state.answer key value) (Kind.address.Asks value) := by
  have hread (result : Except Failure Address) :
      (readAddress value w).1 = result ↔ ResolvesTo w.state.answer value result :=
    Host.resolve_fst_eq_iff
  constructor
  case ok_iff => exact fun a => hread (.ok a)
  case error_iff =>
    intro failure
    rw [hread]
    constructor
    · exact .address
    · intro h
      cases h with
      | address hfails => exact hfails
  case asked =>
    obtain ⟨names, hnames, hstate⟩ := Host.resolve_snd value w.state
    exact ⟨names, .address hnames, hstate⟩

/-- The range of a value is the usable one that it spells without plus signs. -/
theorem membershipRange?_eq_some_iff_rangeIn {r : PortRange} :
    membershipRange? value = some r ↔ RangeIn value r := by
  rw [membershipRange?_eq_some_iff, PortRange.read_eq_ok_iff, PortRange.usable_iff]
  exact ⟨fun h => ⟨h.1, h.2.1, h.2.2.1, h.2.2.2⟩, fun h => ⟨h.1, h.2, h.3, h.4⟩⟩

/-- A membership range is the range of the value, or else the default one. -/
theorem membershipIn_iff {r : PortRange} :
    MembershipIn value r ↔ (membershipRange? value).getD defaultMembershipRange = r := by
  constructor
  · rintro (hr | hnone)
    · rw [membershipRange?_eq_some_iff_rangeIn.mpr hr, Option.getD_some]
    · have hread : membershipRange? value = none :=
        Option.eq_none_iff_forall_ne_some.mpr fun r hr =>
          hnone r (membershipRange?_eq_some_iff_rangeIn.mp hr)
      rw [hread, Option.getD_none]
  · rintro rfl
    rcases hread : membershipRange? value with _ | r
    · refine .default fun r hr => ?_
      rw [membershipRange?_eq_some_iff_rangeIn.mpr hr] at hread
      cases hread
    · exact .range (membershipRange?_eq_some_iff_rangeIn.mp hread)

/-- A membership range is read as its kind says. -/
theorem reads_membershipRange : Reads (readMembershipRange value) w (MembershipIn value)
    (Kind.membershipRange.Refuses w.state.answer key value) (Kind.membershipRange.Asks value) := by
  constructor
  case ok_iff =>
    intro r
    rw [readMembershipRange_fst, membershipIn_iff, Except.ok.injEq]
  case error_iff =>
    intro failure
    rw [readMembershipRange_fst]
    exact ⟨fun h => (by cases h), fun h => (by cases h)⟩
  case asked =>
    refine ⟨[], .other (by simp), ?_⟩
    unfold readMembershipRange
    cases membershipRange? value <;> rfl

end

end Variable

end PortWarden
