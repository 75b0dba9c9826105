import PortWarden.Proofs.Literals
import PortWarden.Proofs.Trees
import PortWarden.Proofs.Validity

/-!
# Configurations as documents

The document of a configuration is a block mapping, from which every setting reads back. Whichever
of its entries are kept and in whichever order they stand, the settings they name are those of the
configuration, and all others have their defaults.
-/

namespace PortWarden.Config

open PortWarden.Text PortWarden.Yaml

/-! ## Literals -/

/-- A text of the characters of numerals and addresses. -/
structure Literal (text : List Char) : Prop where
  /-- There is something to read. -/
  ne_nil : text ≠ []
  /-- Every character is a digit, a colon or a point. -/
  chars : ∀ c ∈ text, (∃ d < 16, c = d.digitChar) ∨ c = ':' ∨ c = '.'
  /-- It does not start with a point. -/
  head : text.head? ≠ some '.'

/-- A literal is a word. -/
theorem Literal.word {text : List Char} (htext : Literal text) : Word text where
  ne_nil := htext.ne_nil
  chars c hc := by
    have hdigits : ∀ d < 16, isWordChar d.digitChar = true := by decide
    rcases htext.chars c hc with ⟨d, hd, rfl⟩ | rfl | rfl
    · exact hdigits d hd
    · rfl
    · rfl
  head := htext.head

/-- A literal is no word for nothing. -/
theorem Literal.not_null {text : List Char} (htext : Literal text) : isNull text = false := by
  have hdigits : ∀ d < 16, d.digitChar ≠ '~' ∧ d.digitChar ≠ 'n' ∧ d.digitChar ≠ 'N' := by decide
  have hchars : ∀ c ∈ text, c ≠ '~' ∧ c ≠ 'n' ∧ c ≠ 'N' := by
    intro c hc
    rcases htext.chars c hc with ⟨d, hd, rfl⟩ | rfl | rfl
    · exact hdigits d hd
    · decide
    · decide
  rw [isNull, decide_eq_false_iff_not]
  intro hnull
  simp only [List.mem_cons, List.not_mem_nil, or_false] at hnull
  rcases hnull with rfl | rfl | rfl | rfl
  · exact absurd rfl (hchars '~' (by decide)).1
  · exact absurd rfl (hchars 'n' (by decide)).2.1
  · exact absurd rfl (hchars 'N' (by decide)).2.2
  · exact absurd rfl (hchars 'N' (by decide)).2.2

/-- A decimal numeral is a literal. -/
theorem literal_decimal (n : Nat) : Literal (decimal n) where
  ne_nil := Nat.toDigits_ne_nil
  chars c hc := by
    obtain ⟨d, hd, rfl⟩ := exists_digit_of_mem_toDigits (by decide) hc
    exact .inl ⟨d, by omega, rfl⟩
  head hhead := point_not_mem_toDigits (by decide) (by decide) (List.mem_of_mem_head? hhead)

/-- The text of an address is a literal. -/
theorem literal_address (a : Address) : Literal a.chars where
  ne_nil hnil := by
    have hread := a.read?_chars
    rw [hnil] at hread
    cases hread
  chars _ hc := Address.digit_or_mark_of_mem_chars hc
  head := a.head?_chars

/-- A text without a colon is written without quotes. -/
theorem wordStyle_of_no_colon {text : List Char} (hcolon : ':' ∉ text) : wordStyle text = .plain :=
  if_neg fun hlast => hcolon (List.mem_of_getLast? hlast)

/-- A text without a colon is written as it is. -/
theorem scalarChars_of_no_colon {text : List Char} (hcolon : ':' ∉ text) :
    scalarChars text = text :=
  if_neg fun hlast => hcolon (List.mem_of_getLast? hlast)

/-! ## Writing -/

/-- A range as a value. -/
def rangeValue (r : PortRange) : BlockValue :=
  .words ("start".toList, decimal r.lower.toNat) [("end".toList, decimal r.upper.toNat)]

/-- The value of a setting, if it is set. -/
def value? (c : Config) : Setting → Option BlockValue
  | .range => some (rangeValue c.range)
  | .membershipRange => some (rangeValue c.membershipRange)
  | .group => c.group.map fun a => .word a.chars
  | .bindAddress => c.bindAddress.map fun a => .word a.chars
  | .timeout => some (.word (decimal c.timeout.toNat))
  | .fastRandom => some (.word (flagChars c.fastRandom))
  | .linkLocalWorkaround => some (.word (flagChars c.linkLocalWorkaround))
  | .attemptLimit => c.attemptLimit.map fun n => .word (decimal n.toNat)
  | .multicastInterface => c.multicastInterface.map fun a => .word a.chars

/-- The keys and values of some settings, as far as they are set. -/
def entries (c : Config) (settings : List Setting) : List (List Char × BlockValue) :=
  settings.filterMap fun s => (c.value? s).map (s.key.toList, ·)

/-- The lines of a range are those of its key and value. -/
theorem rangeLines_eq (key : String) (r : PortRange) :
    rangeLines key r = (rangeValue r).chars key.toList := by
  have hcolon (n : Nat) : ':' ∉ decimal n := colon_not_mem_toDigits (by decide) (by decide)
  have hstart : "  start".toList = ' ' :: ' ' :: "start".toList := rfl
  have hend : "  end".toList = ' ' :: ' ' :: "end".toList := rfl
  have hline : ":\n".toList = [':', '\n'] := rfl
  simp [rangeLines, rangeValue, BlockValue.chars, valueLine, wordLine, hstart, hend, hline,
    scalarChars_of_no_colon (hcolon _)]

/-- The line of a text without a colon is that of its key and the text as a value. -/
theorem valueLine_eq (key : String) {text : List Char} (hcolon : ':' ∉ text) :
    valueLine key text = (BlockValue.word text).chars key.toList := by
  simp [BlockValue.chars, valueLine, wordLine, scalarChars_of_no_colon hcolon]

/-- The lines of a setting are those of its key and value. -/
theorem entryChars?_eq (c : Config) (s : Setting) :
    c.entryChars? s = (c.value? s).map fun value => value.chars s.key.toList := by
  have hcolon (n : Nat) : ':' ∉ decimal n := colon_not_mem_toDigits (by decide) (by decide)
  have hflag (b : Bool) : ':' ∉ flagChars b := by cases b <;> decide
  cases s with
  | range => simp [entryChars?, value?, rangeLines_eq]
  | membershipRange => simp [entryChars?, value?, rangeLines_eq]
  | group => simp [entryChars?, value?, Function.comp_def, BlockValue.chars, valueLine, wordLine]
  | bindAddress =>
    simp [entryChars?, value?, Function.comp_def, BlockValue.chars, valueLine, wordLine]
  | timeout => simp [entryChars?, value?, valueLine_eq _ (hcolon _)]
  | fastRandom => simp [entryChars?, value?, valueLine_eq _ (hflag _)]
  | linkLocalWorkaround => simp [entryChars?, value?, valueLine_eq _ (hflag _)]
  | attemptLimit =>
    simp [entryChars?, value?, Function.comp_def, valueLine_eq _ (hcolon _)]
  | multicastInterface =>
    simp [entryChars?, value?, Function.comp_def, valueLine_eq _ (IPv4.colon_not_mem_chars _)]

/-- The lines of some settings are those of their entries. -/
theorem documentChars_eq (c : Config) (settings : List Setting) :
    c.documentChars settings = (c.entries settings).flatMap fun entry => entry.2.chars entry.1 := by
  induction settings with
  | nil => rfl
  | cons s settings ih =>
    rw [documentChars] at ih ⊢
    rw [List.flatMap_cons, ih, entryChars?_eq, entries]
    cases hvalue : c.value? s with
    | none => simp [hvalue, entries]
    | some value => simp [hvalue, entries]

/-- The key of a setting can be the key of a block mapping. -/
theorem isKey_setting (s : Setting) : IsKey s.key.toList := by
  cases s <;> decide

/-- The value of a setting can stand in a block mapping. -/
theorem value_ok {c : Config} {s : Setting} {value : BlockValue}
    (hvalue : c.value? s = some value) : value.Ok := by
  have hrange (r : PortRange) : (rangeValue r).Ok := by
    have hstart : IsKey "start".toList := by decide
    have hend : IsKey "end".toList := by decide
    refine .words fun entry hentry => ?_
    simp only [List.mem_cons, List.not_mem_nil, or_false] at hentry
    rcases hentry with rfl | rfl
    · exact ⟨hstart, (literal_decimal _).word⟩
    · exact ⟨hend, (literal_decimal _).word⟩
  have hflag (b : Bool) : (BlockValue.word (flagChars b)).Ok := by
    cases b <;> exact .word (by decide)
  cases s with
  | range => cases hvalue; exact hrange _
  | membershipRange => cases hvalue; exact hrange _
  | group =>
    obtain ⟨a, -, rfl⟩ := Option.map_eq_some_iff.mp hvalue
    exact .word (literal_address a).word
  | bindAddress =>
    obtain ⟨a, -, rfl⟩ := Option.map_eq_some_iff.mp hvalue
    exact .word (literal_address a).word
  | timeout => cases hvalue; exact .word (literal_decimal _).word
  | fastRandom => cases hvalue; exact hflag _
  | linkLocalWorkaround => cases hvalue; exact hflag _
  | attemptLimit =>
    obtain ⟨n, -, rfl⟩ := Option.map_eq_some_iff.mp hvalue
    exact .word (literal_decimal _).word
  | multicastInterface =>
    obtain ⟨a, -, rfl⟩ := Option.map_eq_some_iff.mp hvalue
    exact .word (literal_address (.v4 a)).word

/-- The entries of settings can be read as a block mapping. -/
theorem entries_ok (c : Config) (settings : List Setting) :
    ∀ entry ∈ c.entries settings, IsKey entry.1 ∧ entry.2.Ok := by
  intro entry hentry
  obtain ⟨s, -, hpair⟩ := List.mem_filterMap.mp hentry
  obtain ⟨value, hvalue, rfl⟩ := Option.map_eq_some_iff.mp hpair
  exact ⟨isKey_setting s, value_ok hvalue⟩

/-! ## Reading -/

/-- The entries of a tree by the texts of their keys. -/
def nodes (entries : List (List Char × BlockValue)) : List (List Char × Node Nat) :=
  entries.map fun entry => (entry.1, entry.2.node)

/-- The entries of a block mapping are read by the texts of their keys. -/
theorem entries?_mapping (d : Document) (entries : List (List Char × BlockValue)) :
    entries? d (.mapping
        (entries.map fun entry => (BlockValue.wordNode .plain entry.1, entry.2.node))) =
      some (nodes entries) := by
  simp only [entries?, Document.follow]
  induction entries with
  | nil => rfl
  | cons entry entries ih =>
    rw [List.map_cons, List.mapM_cons, ih]
    rfl

/-- A decimal numeral is the text of a plain scalar. -/
theorem node_decimal (n : Nat) :
    (BlockValue.word (decimal n)).node = (.scalar .plain none (decimal n) : Node Nat) := by
  have hstyle : wordStyle (decimal n) = .plain :=
    wordStyle_of_no_colon (colon_not_mem_toDigits (by decide) (by decide))
  rw [BlockValue.node, BlockValue.wordNode, hstyle]

/-- A number of up to 64 bits reads back. -/
theorem uint64?_decimal (d : Document) (n : UInt64) :
    uint64? d (BlockValue.word (decimal n.toNat)).node = some n := by
  have hlt : n.toNat < 2 ^ 64 := n.toNat_lt
  have hread : readNumber? (decimal n.toNat) = some n.toNat :=
    readNumber?_decimal (by simp only [maxUInt64]; omega)
  simp [uint64?, node_decimal, Document.follow, typedText?, hread]

/-- A number of up to 16 bits reads back. -/
theorem uint16?_decimal (d : Document) (n : UInt16) :
    uint16? d (BlockValue.word (decimal n.toNat)).node = some n := by
  have hlt : n.toNat < 2 ^ 16 := n.toNat_lt
  have hread : readNumber? (decimal n.toNat) = some n.toNat :=
    readNumber?_decimal (by simp only [maxUInt64]; omega)
  have hle : n.toNat ≤ maxUInt16 := by
    simp only [maxUInt16]
    omega
  simp [uint16?, node_decimal, Document.follow, typedText?, hread, hle]

/-- A truth value reads back. -/
theorem bool?_flagChars (d : Document) (b : Bool) :
    bool? d (BlockValue.word (flagChars b)).node = some b := by
  cases b <;> rfl

/-- A range reads back. -/
theorem range?_rangeValue (d : Document) (r : PortRange) :
    range? d (rangeValue r).node = some r := by
  let bounds : List (List Char × BlockValue) :=
    [("start".toList, .word (decimal r.lower.toNat)), ("end".toList, .word (decimal r.upper.toNat))]
  have hbounds : entries? d (rangeValue r).node = some (nodes bounds) := entries?_mapping d bounds
  have hlower : valueOf? "start" (nodes bounds) =
      some (some (BlockValue.word (decimal r.lower.toNat)).node) := rfl
  have hupper : valueOf? "end" (nodes bounds) =
      some (some (BlockValue.word (decimal r.upper.toNat)).node) := rfl
  simp only [range?, hbounds, Option.bind_eq_bind, Option.bind_some, hlower, hupper,
    uint16?_decimal]
  rfl

/-- A literal does not say that nothing is written. -/
theorem orNothing?_literal {α : Type} (d : Document) {text : List Char} (htext : Literal text)
    {read? : Node Nat → Option α} {a : α}
    (hread : read? (BlockValue.word text).node = some a) :
    orNothing? d read? (BlockValue.word text).node = some (some a) := by
  have hnothing : saysNothing? (d.follow (BlockValue.word text).node) = some false := by
    have hnull := htext.not_null
    have hempty : text.isEmpty = false := by simpa using htext.ne_nil
    by_cases hlast : text.getLast? = some ':'
    · simp [BlockValue.node, BlockValue.wordNode, wordStyle, hlast, Document.follow, saysNothing?]
    · simp [BlockValue.node, BlockValue.wordNode, wordStyle, hlast, Document.follow, saysNothing?,
        hnull, hempty]
  simp [orNothing?, hnothing, hread]

/-! ## Settings -/

/-- The configuration that has some settings of another, and otherwise the defaults. -/
def only (c : Config) (settings : List Setting) : Config :=
  let defaults : Config := {}
  { range := if .range ∈ settings then c.range else defaults.range
    membershipRange :=
      if .membershipRange ∈ settings then c.membershipRange else defaults.membershipRange
    group := if .group ∈ settings then c.group else defaults.group
    bindAddress := if .bindAddress ∈ settings then c.bindAddress else defaults.bindAddress
    timeout := if .timeout ∈ settings then c.timeout else defaults.timeout
    fastRandom := if .fastRandom ∈ settings then c.fastRandom else defaults.fastRandom
    linkLocalWorkaround :=
      if .linkLocalWorkaround ∈ settings then c.linkLocalWorkaround
      else defaults.linkLocalWorkaround
    attemptLimit := if .attemptLimit ∈ settings then c.attemptLimit else defaults.attemptLimit
    multicastInterface :=
      if .multicastInterface ∈ settings then c.multicastInterface else defaults.multicastInterface }

/-- With all settings it is the same configuration. -/
theorem only_all (c : Config) : c.only Setting.all = c := rfl

/-- No two settings have the same key. -/
theorem key_injective {s t : Setting} (hkey : s.key.toList = t.key.toList) : s = t := by
  cases s <;> cases t <;> first | rfl | exact absurd hkey (by decide)

/-- The entries of settings of which the first is not set are those of the others. -/
theorem entries_cons_none {c : Config} {s : Setting} (hvalue : c.value? s = none)
    (settings : List Setting) : c.entries (s :: settings) = c.entries settings := by
  simp [entries, hvalue]

/-- The first entry of settings is that of the first of them, if it is set. -/
theorem entries_cons_some {c : Config} {s : Setting} {value : BlockValue}
    (hvalue : c.value? s = some value) (settings : List Setting) :
    c.entries (s :: settings) = (s.key.toList, value) :: c.entries settings := by
  simp [entries, hvalue]

/-- Among the entries of different settings, those of a key are the one of its setting, if it is
there. -/
theorem filter_nodes (c : Config) {settings : List Setting} (hnodup : settings.Nodup)
    (s : Setting) :
    (nodes (c.entries settings)).filter (·.1 == s.key.toList) =
      if s ∈ settings then ((c.value? s).map fun value => (s.key.toList, value.node)).toList
      else [] := by
  induction settings with
  | nil => rfl
  | cons t settings ih =>
    obtain ⟨hfresh, hnodup⟩ := List.nodup_cons.mp hnodup
    have hrest := ih hnodup
    by_cases hst : s = t
    · subst hst
      rw [if_neg hfresh] at hrest
      rw [if_pos List.mem_cons_self]
      cases hvalue : c.value? s with
      | none => simpa [entries_cons_none hvalue] using hrest
      | some value => simpa [entries_cons_some hvalue, nodes] using hrest
    · have hkey : (t.key.toList == s.key.toList) = false := by
        rw [beq_eq_false_iff_ne]
        exact fun h => hst (key_injective h).symm
      have hmem : s ∈ t :: settings ↔ s ∈ settings := by simp [hst]
      simp only [hmem]
      rw [← hrest]
      cases hvalue : c.value? t with
      | none => rw [entries_cons_none hvalue]
      | some value =>
        rw [entries_cons_some hvalue, nodes, List.map_cons,
          List.filter_cons_of_neg (by simp [hkey])]
        rfl

section

variable (c : Config) (d : Document) {settings : List Setting} (hnodup : settings.Nodup)
  (s : Setting) {α : Type}

include hnodup

/-- A setting that is always set is read from its entry, and without one has its default. -/
theorem readEntry?_set {value : BlockValue} (hvalue : c.value? s = some value)
    {read? : Node Nat → Option α} {a : α} (hread : read? value.node = some a) (default : α) :
    readEntry? (nodes (c.entries settings)) s.key default read? =
      some (if s ∈ settings then a else default) := by
  have hfilter := filter_nodes c hnodup s
  by_cases hs : s ∈ settings
  · rw [if_pos hs, hvalue] at hfilter
    rw [if_pos hs]
    simp [valueOf?, readEntry?, hfilter, hread]
  · rw [if_neg hs] at hfilter ⊢
    simp [valueOf?, readEntry?, hfilter]

/-- A setting that may be missing is read from its entry, and without one is missing. -/
theorem readEntry?_option {o : Option α} {write : α → List Char}
    (hvalue : c.value? s = o.map fun a => .word (write a)) (hliteral : ∀ a, Literal (write a))
    {read? : Node Nat → Option α}
    (hread : ∀ a, read? (BlockValue.word (write a)).node = some a) :
    readEntry? (nodes (c.entries settings)) s.key none (orNothing? d read?) =
      some (if s ∈ settings then o else none) := by
  cases o with
  | some a =>
    exact readEntry?_set c hnodup s hvalue (orNothing?_literal d (hliteral a) (hread a)) none
  | none =>
    have hfilter := filter_nodes c hnodup s
    rw [hvalue] at hfilter
    simp [valueOf?, readEntry?, hfilter]

end

/-- An address is read by its reader. -/
theorem text?_word {α : Type} (d : Document) {read? : List Char → Option α} {text : List Char}
    {a : α} (hread : read? text = some a) : text? d read? (BlockValue.word text).node = some a := by
  simp [text?, BlockValue.node, BlockValue.wordNode, Document.follow, scalarText?, hread]

/-- The settings of a configuration read back from their entries. -/
theorem ofEntries?_entries (c : Config) (d : Document) {settings : List Setting}
    (hnodup : settings.Nodup) :
    ofEntries? d (nodes (c.entries settings)) = some (c.only settings) := by
  have hdecimal (n : UInt64) : Literal (decimal n.toNat) := literal_decimal n.toNat
  have hinterface (a : IPv4) : Literal a.chars := literal_address (.v4 a)
  have haddress (a : Address) : text? d Address.read? (BlockValue.word a.chars).node = some a :=
    text?_word d a.read?_chars
  have hrange := readEntry?_set c hnodup .range rfl (range?_rangeValue d c.range)
  have hmembership := readEntry?_set c hnodup .membershipRange rfl
    (range?_rangeValue d c.membershipRange)
  have hgroup := readEntry?_option c d hnodup .group rfl literal_address haddress
  have hbind := readEntry?_option c d hnodup .bindAddress rfl literal_address haddress
  have htimeout := readEntry?_set c hnodup .timeout rfl (uint64?_decimal d c.timeout)
  have hfast := readEntry?_set c hnodup .fastRandom rfl (bool?_flagChars d c.fastRandom)
  have hworkaround := readEntry?_set c hnodup .linkLocalWorkaround rfl
    (bool?_flagChars d c.linkLocalWorkaround)
  have hlimit := readEntry?_option c d hnodup .attemptLimit rfl hdecimal (uint64?_decimal d)
  have hmulticast := readEntry?_option c d hnodup .multicastInterface rfl hinterface
    fun a => text?_word d a.read?_chars
  simp only [ofEntries?, hrange, hmembership, hgroup, hbind, htimeout, hfast, hworkaround, hlimit,
    hmulticast]
  rfl

/-- With the defaults in place of some of its settings, a valid configuration stays valid. -/
theorem Valid.only {c : Config} (hvalid : c.Valid) (settings : List Setting) :
    (c.only settings).Valid := by
  have hdefault : Valid {} := fault?_eq_none_iff.mp (by decide)
  have heither {α : Type} {p : α → Prop} {a b : α} (ha : p a) (hb : p b) (s : Setting) :
      p (if s ∈ settings then a else b) := by
    split
    · exact ha
    · exact hb
  exact {
    range := heither hvalid.range hdefault.range .range
    membershipRange := heither hvalid.membershipRange hdefault.membershipRange .membershipRange
    group := heither (p := fun group => ∀ a ∈ group, Address.isMulticast a = true)
      hvalid.group hdefault.group .group
    timeout := heither (p := (· ≠ 0)) hvalid.timeout hdefault.timeout .timeout
    attemptLimit :=
      heither (p := (· ≠ some 0)) hvalid.attemptLimit hdefault.attemptLimit .attemptLimit }

/-! ## Files -/

/-- The lines of some settings are read as the configuration that has these settings. -/
theorem ofDocument?_documentChars (c : Config) {settings : List Setting} (hnodup : settings.Nodup) :
    ofDocument? (String.ofList (c.documentChars settings)) = some (c.only settings) := by
  rw [ofDocument?, String.toList_ofList, documentChars_eq]
  by_cases hnone : c.entries settings = []
  · -- a document without entries is no mapping, and is read as if it were one
    have hread := ofEntries?_entries c ⟨.empty, []⟩ hnodup
    rw [hnone] at hread ⊢
    exact hread
  · have hread := document?_entries hnone (c.entries_ok settings)
    obtain ⟨anchors, hnumbers⟩ := ofNode?_entries (c.entries settings)
    simp only [hread, hnumbers, Option.bind_eq_bind, Option.bind_some, entries?_mapping]
    exact ofEntries?_entries c _ hnodup

/-- A file that holds the octets of a text is read as the text. -/
theorem text_toUTF8 (s : String) : FileContent.text (.ok s.toUTF8) = .ok s := by
  have hread : String.fromUTF8? s.toUTF8 = some s := dif_pos s.isValidUTF8
  simp only [FileContent.text, hread]

/-- Reading undoes writing: of the document of a valid configuration, the entries of any settings,
each once and in any order, are read as the configuration that has these settings and otherwise the
defaults, and so the whole document is read as the configuration. -/
theorem document_reads_back {c : Config} (hcheck : c.check = .ok c) :
    (∀ settings : List Setting, settings.Nodup →
      load (.ok (String.ofList (c.documentChars settings)).toUTF8) = .ok (c.only settings)) ∧
    load (.ok c.document.toUTF8) = .ok c := by
  obtain ⟨-, hvalid⟩ := check_eq_ok_iff.mp hcheck
  have hload (settings : List Setting) (hnodup : settings.Nodup) :
      load (.ok (String.ofList (c.documentChars settings)).toUTF8) = .ok (c.only settings) := by
    have hread := ofDocument?_documentChars c hnodup
    have hchecked : (c.only settings).check = .ok (c.only settings) :=
      check_eq_ok_iff.mpr ⟨rfl, hvalid.only settings⟩
    rw [load, text_toUTF8]
    change ofText _ = _
    rw [ofText, hread]
    exact hchecked
  have hall : load (.ok c.document.toUTF8) = .ok (c.only Setting.all) :=
    hload Setting.all (by decide)
  rw [only_all] at hall
  exact ⟨hload, hall⟩

/-- A configuration whose address is written in quotes, of which two entries are kept, the range
after the address. -/
theorem document_reads_back_in_quotes :
    let c : Config :=
      { range := ⟨1, 65535⟩, bindAddress := some (.v6 .unspecified), attemptLimit := some 3 }
    c.check = .ok c ∧
      load (.ok "bindAddress: '::'\nrange:\n  start: 1\n  end: 65535\n".toUTF8) =
        .ok { c with attemptLimit := none } ∧
      load (.ok c.document.toUTF8) = .ok c := by
  intro c
  have hcheck : c.check = .ok c := by decide +kernel
  have htext : String.ofList (c.documentChars [.bindAddress, .range]) =
      "bindAddress: '::'\nrange:\n  start: 1\n  end: 65535\n" := by decide +kernel
  have honly : c.only [.bindAddress, .range] = { c with attemptLimit := none } := by decide +kernel
  obtain ⟨hsome, hall⟩ := document_reads_back hcheck
  have hread := hsome [.bindAddress, .range] (by decide)
  rw [htext, honly] at hread
  exact ⟨hcheck, hread, hall⟩

end PortWarden.Config
