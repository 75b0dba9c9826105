import PortWarden.Proofs.AddressSpelling
import PortWarden.Proofs.Documents
import Mathlib.Data.List.Forall2

/-!
# What files say

A file says something of a setting by the one entry of its key, and leaves the default where there
is none. What is read of a file is what it says, by the meaning of each value: a number in one of
its spellings, a truth value, an address, or a range whose two bounds are entries themselves.
-/

namespace PortWarden

open PortWarden.Text PortWarden.Yaml

/-- Reading a list item by item gives what is read of each. -/
theorem Yaml.mapM_eq_some_iff {α β : Type} {f : α → Option β} {xs : List α} {ys : List β} :
    xs.mapM f = some ys ↔ List.Forall₂ (fun x y => f x = some y) xs ys := by
  induction xs generalizing ys with
  | nil => simp [eq_comm]
  | cons x xs ih =>
    simp only [List.mapM_cons, Option.pure_def, Option.bind_eq_bind, Option.bind_eq_some_iff,
      Option.some.injEq, ih, List.forall₂_cons_left_iff]
    constructor
    · rintro ⟨y, hy, ys, hys, rfl⟩
      exact ⟨y, ys, hy, hys, rfl⟩
    · rintro ⟨y, ys, hy, hys, rfl⟩
      exact ⟨y, hy, ys, hys, rfl⟩

namespace Config

/-! ## Numbers -/

/-- The signs of the bases other than ten. -/
def bases : List (Char × Nat) := [('x', 16), ('o', 8), ('b', 2)]

/-- A text that a number has in a document. -/
inductive Counts : List Char → Nat → Prop where
  /-- It is written in decimal without leading zeros. -/
  | decimal {cs : List Char} {n : Nat} (hcs : DecimalNumeral cs n)
      (hzero : cs.head? = some '0' → cs = ['0']) : Counts cs n
  /-- It is written in another base behind the sign of that. -/
  | inBase {sign : Char} {base : Nat} {cs : List Char} {n : Nat} (hbase : (sign, base) ∈ bases)
      (hcs : Numeral base cs n) : Counts ('0' :: sign :: cs) n
  /-- A plus sign stands in front. -/
  | plus {cs : List Char} {n : Nat} (hcs : Counts cs n) (hplus : cs.head? ≠ some '+') :
      Counts ('+' :: cs) n

/-- The digits behind the sign of a base are those that follow it. -/
theorem afterBase?_eq_some_iff {sign : Char} {cs rest : List Char} :
    afterBase? sign cs = some rest ↔ cs = '0' :: sign :: rest := by
  unfold afterBase?
  split
  · rename_i c cs
    by_cases hc : c = sign
    · simp [hc]
    · simp [hc]
  · rename_i hnot
    constructor
    · rintro ⟨⟩
    · rintro rfl
      exact absurd rfl (hnot _ _)

/-- A decimal number is read exactly if no zero leads and it is within the bound. -/
theorem readDecimal?_eq_some_iff {cs : List Char} {n : Nat} :
    (if 1 < cs.length ∧ cs.head? = some '0' ∧ cs.all Char.isDigit then none
      else (readUnsigned 10 maxUInt64 cs).toOption) = some n ↔
      (DecimalNumeral cs n ∧ (cs.head? = some '0' → cs = ['0'])) ∧ n ≤ maxUInt64 := by
  have hread : (readUnsigned 10 maxUInt64 cs).toOption = some n ↔
      DecimalNumeral cs n ∧ n ≤ maxUInt64 := by
    rw [toOption_eq_some_iff, readUnsigned_eq_ok_iff (by decide), numeral_ten_iff]
  split
  · rename_i hleading
    obtain ⟨hlength, hhead, -⟩ := hleading
    constructor
    · rintro ⟨⟩
    · rintro ⟨⟨-, hzero⟩, -⟩
      rw [hzero hhead] at hlength
      exact absurd hlength (by decide)
  · rename_i hnot
    rw [hread]
    constructor
    · rintro ⟨hcs, hn⟩
      refine ⟨⟨hcs, fun hhead => ?_⟩, hn⟩
      have hlength : ¬1 < cs.length := fun hlong =>
        hnot ⟨hlong, hhead, List.all_eq_true.mpr hcs.digits⟩
      rcases cs with _ | ⟨c, _ | ⟨d, cs⟩⟩
      · cases hhead
      · cases hhead
        rfl
      · simp at hlength
    · rintro ⟨⟨hcs, -⟩, hn⟩
      exact ⟨hcs, hn⟩

/-- The texts of numbers that do not start with a plus sign. -/
theorem counts_iff_of_no_plus {cs : List Char} {n : Nat} (hplus : cs.head? ≠ some '+') :
    Counts cs n ↔ DecimalNumeral cs n ∧ (cs.head? = some '0' → cs = ['0']) ∨
      ∃ sign base rest, (sign, base) ∈ bases ∧ cs = '0' :: sign :: rest ∧ Numeral base rest n := by
  constructor
  · rintro (⟨hcs, hzero⟩ | ⟨hbase, hcs⟩ | ⟨-, -⟩)
    · exact .inl ⟨hcs, hzero⟩
    · exact .inr ⟨_, _, _, hbase, rfl, hcs⟩
    · exact absurd rfl hplus
  · rintro (⟨hcs, hzero⟩ | ⟨sign, base, rest, hbase, rfl, hcs⟩)
    · exact .decimal hcs hzero
    · exact .inBase hbase hcs

/-- A text without a plus sign in front is read as a number exactly if the number has it. -/
theorem readNumber?_of_no_plus {cs : List Char} {n : Nat} (hplus : cs.head? ≠ some '+') :
    readNumber? cs = some n ↔ Counts cs n ∧ n ≤ maxUInt64 := by
  rw [counts_iff_of_no_plus hplus]
  simp only [readNumber?, if_neg hplus]
  by_cases hsigned : ∃ sign base rest, (sign, base) ∈ bases ∧ cs = '0' :: sign :: rest
  · obtain ⟨sign, base, rest, hbase, rfl⟩ := hsigned
    have hnot : sign.isDigit = false := by
      revert hbase
      simp only [bases, List.mem_cons, Prod.mk.injEq, List.not_mem_nil, or_false]
      rintro (⟨rfl, -⟩ | ⟨rfl, -⟩ | ⟨rfl, -⟩) <;> decide
    have hdecimal (m : Nat) : ¬DecimalNumeral ('0' :: sign :: rest) m := fun hcs => by
      rw [hcs.digits sign (.tail _ (.head _))] at hnot
      cases hnot
    have hten : (if 1 < ('0' :: sign :: rest).length ∧ ('0' :: sign :: rest).head? = some '0' ∧
        ('0' :: sign :: rest).all Char.isDigit then none
        else (readUnsigned 10 maxUInt64 ('0' :: sign :: rest)).toOption) = none :=
      Option.eq_none_iff_forall_ne_some.mpr fun m hm =>
        hdecimal m (readDecimal?_eq_some_iff.mp hm).1.1
    have hread (base : Nat) (hbase : 0 < base) :
        (readUnsigned base maxUInt64 rest).toOption = some n ↔
          Numeral base rest n ∧ n ≤ maxUInt64 := by
      rw [toOption_eq_some_iff, readUnsigned_eq_ok_iff hbase]
    simp only [hten, hdecimal, false_and, false_or]
    simp only [bases, List.mem_cons, Prod.mk.injEq, List.not_mem_nil, or_false] at hbase ⊢
    rcases hbase with ⟨rfl, rfl⟩ | ⟨rfl, rfl⟩ | ⟨rfl, rfl⟩ <;>
      simp [afterBase?, hread]
  · have hnone (sign : Char) (base : Nat) (hbase : (sign, base) ∈ bases) :
        afterBase? sign cs = none :=
      Option.eq_none_iff_forall_ne_some.mpr fun rest hrest =>
        hsigned ⟨sign, base, rest, hbase, afterBase?_eq_some_iff.mp hrest⟩
    have hothers : ¬∃ sign base rest, (sign, base) ∈ bases ∧ cs = '0' :: sign :: rest ∧
        Numeral base rest n := by
      rintro ⟨sign, base, rest, hbase, hcs, -⟩
      exact hsigned ⟨sign, base, rest, hbase, hcs⟩
    simp only [hnone 'x' 16 (by decide), hnone 'o' 8 (by decide), hnone 'b' 2 (by decide),
      Option.bind_eq_bind, Option.bind_none, hothers, or_false]
    exact readDecimal?_eq_some_iff

/-- A text is read as a number exactly if the number has it and is one of 64 bits. -/
theorem readNumber?_eq_some_iff {cs : List Char} {n : Nat} :
    readNumber? cs = some n ↔ Counts cs n ∧ n ≤ maxUInt64 := by
  by_cases hplus : cs.head? = some '+'
  · obtain ⟨rest, rfl⟩ := List.head?_eq_some_iff.mp hplus
    have hcounts : Counts ('+' :: rest) n ↔ Counts rest n ∧ rest.head? ≠ some '+' := by
      constructor
      · rintro (⟨hcs, -⟩ | - | ⟨hcs, hrest⟩)
        · exact absurd (hcs.digits '+' (.head _)) (by decide)
        · exact ⟨hcs, hrest⟩
      · rintro ⟨hcs, hrest⟩
        exact .plus hcs hrest
    rw [hcounts]
    by_cases hagain : rest.head? = some '+'
    · have hnone : readNumber? ('+' :: rest) = none := by
        obtain ⟨more, rfl⟩ := List.head?_eq_some_iff.mp hagain
        have hdecimal : readUnsigned 10 maxUInt64 ('+' :: more) = .error .invalidDigit := rfl
        simp [readNumber?, afterBase?, hdecimal, Except.toOption]
      simp [hnone, hagain]
    · have hsame : readNumber? ('+' :: rest) = readNumber? rest := by
        simp [readNumber?, hagain]
      rw [hsame, readNumber?_of_no_plus hagain]
      simp [hagain]
  · exact readNumber?_of_no_plus hplus

/-! ## Values -/

/-- The text of a scalar that may be a number or a truth value, where `tag` is the tag of those: a
plain scalar, or a literal one with the tag. -/
inductive HasText (tag : String) : Node Nat → List Char → Prop where
  /-- The scalar is plain. -/
  | plain {other : Option (List Char)} {text : List Char} :
      HasText tag (.scalar .plain other text) text
  /-- The scalar is literal and tagged. -/
  | literal {text : List Char} :
      HasText tag (.scalar .literal (some ("tag:yaml.org,2002:".toList ++ tag.toList)) text) text

/-- The text of a scalar that may have a type is read if it is one. -/
theorem typedText?_eq_some_iff {tag : String} {n : Node Nat} {text : List Char} :
    typedText? tag n = some text ↔ HasText tag n text := by
  constructor
  · intro htext
    unfold typedText? at htext
    split at htext
    · cases htext
      exact .plain
    · split at htext
      · cases htext
        rename_i htag
        rw [htag]
        exact .literal
      · cases htext
    · cases htext
  · rintro (_ | _)
    · rfl
    · exact if_pos rfl

variable (d : Document)

/-- A node that says a number. -/
def SaysNumber (n : Node Nat) (value : Nat) : Prop :=
  ∃ text, HasText "int" (d.follow n) text ∧ Counts text value

/-- The texts of a truth value. -/
def flagTexts : Bool → List (List Char)
  | true => ["true".toList, "True".toList, "TRUE".toList]
  | false => ["false".toList, "False".toList, "FALSE".toList]

/-- A text is read as a truth value exactly if it is one of its texts. -/
theorem readBool?_eq_some_iff {text : List Char} {b : Bool} :
    readBool? text = some b ↔ text ∈ flagTexts b := by
  constructor
  · intro hread
    unfold readBool? at hread
    split at hread
    · cases hread
      assumption
    · split at hread
      · cases hread
        assumption
      · cases hread
  · have htexts : ∀ b, ∀ text ∈ flagTexts b, readBool? text = some b := by decide
    exact htexts b text

/-- A node that says a truth value. -/
def SaysFlag (n : Node Nat) (b : Bool) : Prop :=
  ∃ text, HasText "bool" (d.follow n) text ∧ text ∈ flagTexts b

/-- A node that says a text, in whichever style. -/
def SaysText (n : Node Nat) (text : List Char) : Prop :=
  ∃ style tag, d.follow n = .scalar style tag text

/-- A node that says an address. -/
def SaysAddress (n : Node Nat) (a : Address) : Prop := ∃ text, SaysText d n text ∧ a.SpelledBy text

/-- A node that says an IPv4 address. -/
def SaysIPv4 (n : Node Nat) (a : IPv4) : Prop := SaysText d n a.chars

/-- The words for nothing. -/
def nothings : List (List Char) := ["~".toList, "null".toList, "Null".toList, "NULL".toList]

/-- A node that says that there is nothing. -/
inductive SaysNothing : Node Nat → Prop where
  /-- Nothing is written. -/
  | empty : SaysNothing (.scalar .plain none [])
  /-- A word for nothing is. -/
  | word {text : List Char} (hword : text ∈ nothings) :
      SaysNothing (.scalar .plain none text)
  /-- A word for nothing is, with the tag of that. -/
  | tagged {text : List Char} (hword : text ∈ nothings) :
      SaysNothing (.scalar .plain (some "tag:yaml.org,2002:null".toList) text)

/-- A node of a setting that may be missing: it says that there is nothing, or else what there
is. -/
inductive SaysOption {α : Type} (means : Node Nat → α → Prop) (n : Node Nat) :
    Option α → Prop where
  /-- There is nothing. -/
  | nothing (hnothing : SaysNothing (d.follow n)) : SaysOption means n none
  /-- There is something, and no tag says otherwise. -/
  | something {a : α} (hnot : ¬SaysNothing (d.follow n))
      (htag : ∀ text, d.follow n ≠ .scalar .plain (some "tag:yaml.org,2002:null".toList) text)
      (ha : means n a) : SaysOption means n (some a)

section

variable {d} {n : Node Nat}

/-- A number of 16 bits is read exactly if the node says it. -/
theorem uint16?_eq_some_iff {value : UInt16} :
    uint16? d n = some value ↔ SaysNumber d n value.toNat := by
  simp only [uint16?, SaysNumber, Option.pure_def, Option.bind_eq_bind, Option.bind_eq_some_iff,
    typedText?_eq_some_iff, readNumber?_eq_some_iff]
  constructor
  · rintro ⟨text, htext, number, ⟨hcounts, -⟩, hvalue⟩
    split at hvalue
    · rename_i hle
      cases hvalue
      rw [UInt16.toNat_ofNat_of_lt' (Nat.lt_succ_of_le hle)]
      exact ⟨text, htext, hcounts⟩
    · cases hvalue
  · rintro ⟨text, htext, hcounts⟩
    have hle : value.toNat ≤ maxUInt16 := Nat.le_of_lt_succ value.toNat_lt
    refine ⟨text, htext, value.toNat, ⟨hcounts, hle.trans (by decide)⟩, ?_⟩
    rw [if_pos hle, value.ofNat_toNat]

/-- A number of 64 bits is read exactly if the node says it. -/
theorem uint64?_eq_some_iff {value : UInt64} :
    uint64? d n = some value ↔ SaysNumber d n value.toNat := by
  simp only [uint64?, SaysNumber, Option.pure_def, Option.bind_eq_bind, Option.bind_eq_some_iff,
    typedText?_eq_some_iff, readNumber?_eq_some_iff, Option.some.injEq]
  constructor
  · rintro ⟨text, htext, number, ⟨hcounts, hle⟩, rfl⟩
    rw [UInt64.toNat_ofNat_of_lt' (Nat.lt_succ_of_le hle)]
    exact ⟨text, htext, hcounts⟩
  · rintro ⟨text, htext, hcounts⟩
    have hle : value.toNat ≤ maxUInt64 := Nat.le_of_lt_succ value.toNat_lt
    exact ⟨text, htext, value.toNat, ⟨hcounts, hle⟩, value.ofNat_toNat⟩

/-- A truth value is read exactly if the node says it. -/
theorem bool?_eq_some_iff {b : Bool} : bool? d n = some b ↔ SaysFlag d n b := by
  simp only [bool?, SaysFlag, Option.bind_eq_bind, Option.bind_eq_some_iff,
    typedText?_eq_some_iff, readBool?_eq_some_iff]

/-- The text of a scalar is read exactly if the node says it. -/
theorem scalarText?_eq_some_iff {text : List Char} :
    scalarText? (d.follow n) = some text ↔ SaysText d n text := by
  unfold SaysText
  cases d.follow n <;> simp [scalarText?]

/-- A scalar that is tagged as nothing has to say so. -/
theorem saysNothing?_tagged (text : List Char) :
    saysNothing? (.scalar .plain (some "tag:yaml.org,2002:null".toList) text) =
      if isNull text then some true else none := by
  have htag : "tag:yaml.org,2002:null".toList = coreTag "null" := by decide
  simp only [saysNothing?, htag, if_true]

/-- That a node says that there is nothing is found out exactly if it does. -/
theorem saysNothing?_eq_true_iff {m : Node Nat} :
    saysNothing? m = some true ↔ SaysNothing m := by
  have hnull (text : List Char) : isNull text = true ↔ text ∈ nothings := decide_eq_true_iff
  constructor
  · intro hfound
    unfold saysNothing? at hfound
    split at hfound
    · rename_i text
      rcases (Bool.or_eq_true _ _).mp (Option.some.inj hfound) with hempty | hword
      · obtain rfl := List.isEmpty_iff.mp hempty
        exact .empty
      · exact .word ((hnull text).mp hword)
    · rename_i tag text
      split at hfound
      · rename_i htag
        split at hfound
        · rw [htag]
          exact .tagged ((hnull text).mp ‹_›)
        · cases hfound
      · cases hfound
    · cases hfound
  · rintro (_ | hword | hword)
    · rfl
    · simp [saysNothing?, (hnull _).mpr hword]
    · rw [saysNothing?_tagged, if_pos ((hnull _).mpr hword)]

/-- That there is something is found out exactly if a node does not say that there is nothing, and
has no tag that says so. -/
theorem saysNothing?_eq_false_iff {m : Node Nat} : saysNothing? m = some false ↔
    ¬SaysNothing m ∧
      ∀ text, m ≠ .scalar .plain (some "tag:yaml.org,2002:null".toList) text := by
  rw [← saysNothing?_eq_true_iff]
  constructor
  · intro hfound
    constructor
    · intro htrue
      rw [hfound] at htrue
      cases htrue
    · rintro text rfl
      rw [saysNothing?_tagged] at hfound
      split at hfound <;> cases hfound
  · rintro ⟨hnot, htag⟩
    unfold saysNothing? at hnot ⊢
    split
    · simpa using hnot
    · rename_i tag text
      rw [if_neg]
      rintro rfl
      exact htag text rfl
    · rfl

/-- An address is read exactly if the node says it. -/
theorem text?_address_iff {a : Address} :
    text? d Address.read? n = some a ↔ SaysAddress d n a := by
  simp only [text?, SaysAddress, Option.bind_eq_bind, Option.bind_eq_some_iff,
    scalarText?_eq_some_iff, Address.read?_eq_some_iff]

/-- An IPv4 address is read exactly if the node says it. -/
theorem text?_ipv4_iff {a : IPv4} : text? d IPv4.read? n = some a ↔ SaysIPv4 d n a := by
  simp only [text?, SaysIPv4, Option.bind_eq_bind, Option.bind_eq_some_iff,
    scalarText?_eq_some_iff, IPv4.read?_eq_some_iff, exists_eq_right]

/-- What may be missing is read exactly if the node says it. -/
theorem orNothing?_eq_some_iff {α : Type} {read? : Node Nat → Option α}
    {means : Node Nat → α → Prop} (hread : ∀ a, read? n = some a ↔ means n a) {o : Option α} :
    orNothing? d read? n = some o ↔ SaysOption d means n o := by
  simp only [orNothing?, Option.bind_eq_bind, Option.bind_eq_some_iff]
  constructor
  · rintro ⟨_ | _, hnothing, hrest⟩
    · obtain ⟨hnot, htag⟩ := saysNothing?_eq_false_iff.mp hnothing
      simp only [Bool.false_eq_true, if_false, Option.pure_def, Option.bind_eq_some_iff,
        Option.some.injEq] at hrest
      obtain ⟨a, ha, rfl⟩ := hrest
      exact .something hnot htag ((hread a).mp ha)
    · cases hrest
      exact .nothing (saysNothing?_eq_true_iff.mp hnothing)
  · rintro (hnothing | @⟨a, hnot, htag, ha⟩)
    · exact ⟨true, saysNothing?_eq_true_iff.mpr hnothing, rfl⟩
    · refine ⟨false, saysNothing?_eq_false_iff.mpr ⟨hnot, htag⟩, ?_⟩
      simp [(hread a).mpr ha]

end

/-! ## Entries -/

/-- The one value of a key. -/
def OnlyValue (entries : List (List Char × Node Nat)) (key : String) (value : Node Nat) : Prop :=
  ∃ before after, entries = before ++ (key.toList, value) :: after ∧
    ∀ entry ∈ before ++ after, entry.1 ≠ key.toList

/-- What entries tell of a setting: the meaning of the value of its key, or the default if there is
no such key. -/
inductive Tells {α : Type} (entries : List (List Char × Node Nat)) (key : String) (default : α)
    (means : Node Nat → α → Prop) : α → Prop where
  /-- No entry has the key. -/
  | missing (hnone : ∀ entry ∈ entries, entry.1 ≠ key.toList) :
      Tells entries key default means default
  /-- Just one entry has it. -/
  | told {value : Node Nat} {a : α} (hvalue : OnlyValue entries key value) (ha : means value a) :
      Tells entries key default means a

section

variable {entries : List (List Char × Node Nat)} {key : String}

/-- A key has no value exactly if no entry has it. -/
theorem valueOf?_eq_none_iff :
    valueOf? key entries = some none ↔ ∀ entry ∈ entries, entry.1 ≠ key.toList := by
  have hfilter : entries.filter (·.1 == key.toList) = [] ↔
      ∀ entry ∈ entries, entry.1 ≠ key.toList := by
    simp only [List.filter_eq_nil_iff, beq_iff_eq, ne_eq]
  rw [← hfilter]
  unfold valueOf?
  split
  · rename_i hnone
    exact ⟨fun _ => hnone, fun _ => rfl⟩
  · rename_i hone
    rw [hone]
    constructor <;> rintro ⟨⟩
  · rename_i hnot _
    constructor
    · rintro ⟨⟩
    · intro hnone
      exact absurd hnone hnot

/-- A key has a value exactly if one entry has it and no other one does. -/
theorem valueOf?_eq_some_iff {value : Node Nat} :
    valueOf? key entries = some (some value) ↔ OnlyValue entries key value := by
  have hfilter : entries.filter (·.1 == key.toList) = [(key.toList, value)] ↔
      OnlyValue entries key value := by
    simp only [List.filter_eq_cons_iff, List.filter_eq_nil_iff, OnlyValue, List.forall_mem_append,
      beq_iff_eq, ne_eq, true_and]
  rw [← hfilter]
  unfold valueOf?
  split
  · rename_i hnone
    rw [hnone]
    constructor <;> rintro ⟨⟩
  · rename_i name other hone
    have hname : name = key.toList := by
      have hmem : (name, other) ∈ entries.filter (·.1 == key.toList) := by simp [hone]
      exact eq_of_beq (List.mem_filter.mp hmem).2
    rw [hone, hname]
    simp
  · rename_i hnot
    constructor
    · rintro ⟨⟩
    · intro hone
      exact absurd hone (hnot _ _)

variable {α : Type} {default a : α} {read? : Node Nat → Option α} {means : Node Nat → α → Prop}

/-- A setting is read exactly if the entries tell it. -/
theorem readEntry?_eq_some_iff (hread : ∀ n a, read? n = some a ↔ means n a) :
    readEntry? entries key default read? = some a ↔ Tells entries key default means a := by
  simp only [Option.bind_eq_bind, Option.bind_eq_some_iff, readEntry?]
  constructor
  · rintro ⟨_ | value, hvalue, hrest⟩
    · cases hrest
      exact .missing (valueOf?_eq_none_iff.mp hvalue)
    · exact .told (valueOf?_eq_some_iff.mp hvalue) ((hread value a).mp hrest)
  · rintro (hnone | @⟨value, a, hvalue, ha⟩)
    · exact ⟨none, valueOf?_eq_none_iff.mpr hnone, rfl⟩
    · exact ⟨some value, valueOf?_eq_some_iff.mpr hvalue, (hread value a).mpr ha⟩

end

/-- What the entries of a node are, by the texts of their keys. Where nothing is written there are
none. -/
inductive Lists (n : Node Nat) : List (List Char × Node Nat) → Prop where
  /-- Nothing is written. -/
  | nothing {tag : Option (List Char)} (hn : d.follow n = .scalar .plain tag []) : Lists n []
  /-- Each entry of a mapping is listed by the text of its key. -/
  | mapping {pairs : List (Node Nat × Node Nat)} {entries : List (List Char × Node Nat)}
      (hn : d.follow n = .mapping pairs)
      (hkeys : List.Forall₂ (fun pair entry => SaysText d pair.1 entry.1 ∧ entry.2 = pair.2) pairs
        entries) : Lists n entries

/-- Entries are read exactly if they are those of the node. -/
theorem entries?_eq_some_iff {n : Node Nat} {entries : List (List Char × Node Nat)} :
    entries? d n = some entries ↔ Lists d n entries := by
  have hpair (pair : Node Nat × Node Nat) (entry : List Char × Node Nat) :
      (do return (← scalarText? (d.follow pair.1), pair.2)) = some entry ↔
        SaysText d pair.1 entry.1 ∧ entry.2 = pair.2 := by
    simp only [Option.pure_def, Option.bind_eq_bind, Option.bind_eq_some_iff,
      scalarText?_eq_some_iff, Option.some.injEq]
    constructor
    · rintro ⟨text, htext, rfl⟩
      exact ⟨htext, rfl⟩
    · rintro ⟨htext, hvalue⟩
      exact ⟨entry.1, htext, Prod.ext rfl hvalue.symm⟩
  have hpairs (pairs : List (Node Nat × Node Nat)) :
      (pairs.mapM fun pair => do return (← scalarText? (d.follow pair.1), pair.2)) =
        some entries ↔
      List.Forall₂ (fun pair entry => SaysText d pair.1 entry.1 ∧ entry.2 = pair.2) pairs
        entries := by
    rw [Yaml.mapM_eq_some_iff]
    exact ⟨fun h => h.imp fun pair entry => (hpair pair entry).mp,
      fun h => h.imp fun pair entry => (hpair pair entry).mpr⟩
  unfold entries?
  constructor
  · intro hread
    split at hread
    · rename_i pairs hn
      exact .mapping hn ((hpairs pairs).mp hread)
    · rename_i hn
      cases hread
      exact .nothing hn
    · cases hread
  · rintro (hn | ⟨hn, hkeys⟩)
    · rw [hn]
    · rw [hn]
      exact (hpairs _).mpr hkeys

/-- A node that says a range, by an entry for each bound. -/
def SaysRange (n : Node Nat) (r : PortRange) : Prop :=
  ∃ entries lower upper, Lists d n entries ∧ OnlyValue entries "start" lower ∧
    OnlyValue entries "end" upper ∧ SaysNumber d lower r.lower.toNat ∧
    SaysNumber d upper r.upper.toNat

/-- A range is read exactly if the node says it. -/
theorem range?_eq_some_iff {n : Node Nat} {r : PortRange} :
    range? d n = some r ↔ SaysRange d n r := by
  unfold range?
  simp only [Option.bind_eq_bind, Option.bind_eq_some_iff, entries?_eq_some_iff]
  constructor
  · rintro ⟨entries, hentries, lower?, hlower, hread⟩
    cases lower? with
    | none => cases hread
    | some lower =>
      obtain ⟨upper?, hupper, hread⟩ := Option.bind_eq_some_iff.mp hread
      cases upper? with
      | none => cases hread
      | some upper =>
        simp only [Option.bind_eq_some_iff, Option.pure_def, Option.some.injEq,
          uint16?_eq_some_iff] at hread
        obtain ⟨first, hfirst, last, hlast, rfl⟩ := hread
        exact ⟨entries, lower, upper, hentries, valueOf?_eq_some_iff.mp hlower,
          valueOf?_eq_some_iff.mp hupper, hfirst, hlast⟩
  · rintro ⟨entries, lower, upper, hentries, hlower, hupper, hfirst, hlast⟩
    refine ⟨entries, hentries, ?_⟩
    simp [valueOf?_eq_some_iff.mpr hlower, valueOf?_eq_some_iff.mpr hupper,
      uint16?_eq_some_iff.mpr hfirst, uint16?_eq_some_iff.mpr hlast]

/-! ## Files -/

/-- The configuration of which nothing is said. -/
def standard : Config where
  range := ⟨20001, 29999⟩
  membershipRange := ⟨41000, 61000⟩
  group := none
  bindAddress := none
  timeout := 2000
  fastRandom := false
  linkLocalWorkaround := true
  attemptLimit := none
  multicastInterface := none

/-- What the entries of a document say of a configuration. -/
structure SaidBy (entries : List (List Char × Node Nat)) (c : Config) : Prop where
  /-- The general range. -/
  range : Tells entries "range" standard.range (SaysRange d) c.range
  /-- The membership range. -/
  membershipRange : Tells entries "membershipRange" standard.membershipRange (SaysRange d)
    c.membershipRange
  /-- The multicast group. -/
  group : Tells entries "mcastAddress" standard.group (SaysOption d (SaysAddress d)) c.group
  /-- The address for stream ports. -/
  bindAddress : Tells entries "bindAddress" standard.bindAddress (SaysOption d (SaysAddress d))
    c.bindAddress
  /-- The time to wait for an answer. -/
  timeout : Tells entries "timeoutMs" standard.timeout (fun n t => SaysNumber d n t.toNat) c.timeout
  /-- The kind of generator. -/
  fastRandom : Tells entries "fastRandom" standard.fastRandom (SaysFlag d) c.fastRandom
  /-- Whether failing link-local addresses count as free. -/
  linkLocalWorkaround : Tells entries "linkLocalWorkaround" standard.linkLocalWorkaround
    (SaysFlag d) c.linkLocalWorkaround
  /-- The limit of attempts. -/
  attemptLimit : Tells entries "randomAttemptLimit" standard.attemptLimit
    (SaysOption d fun n limit => SaysNumber d n limit.toNat) c.attemptLimit
  /-- The interface for messages to IPv4 groups. -/
  multicastInterface : Tells entries "multicastInterface" standard.multicastInterface
    (SaysOption d (SaysIPv4 d)) c.multicastInterface

/-- A configuration is read from entries exactly if they say it. -/
theorem ofEntries?_eq_some_iff {entries : List (List Char × Node Nat)} {c : Config} :
    ofEntries? d entries = some c ↔ SaidBy d entries c := by
  have haddress (n : Node Nat) (o : Option Address) :
      orNothing? d (text? d Address.read?) n = some o ↔ SaysOption d (SaysAddress d) n o :=
    orNothing?_eq_some_iff fun _ => text?_address_iff
  have hinterface (n : Node Nat) (o : Option IPv4) :
      orNothing? d (text? d IPv4.read?) n = some o ↔ SaysOption d (SaysIPv4 d) n o :=
    orNothing?_eq_some_iff fun _ => text?_ipv4_iff
  have hlimit (n : Node Nat) (o : Option UInt64) : orNothing? d (uint64? d) n = some o ↔
      SaysOption d (fun n limit => SaysNumber d n limit.toNat) n o :=
    orNothing?_eq_some_iff fun _ => uint64?_eq_some_iff
  simp only [ofEntries?, Option.pure_def, Option.bind_eq_bind, Option.bind_eq_some_iff,
    Option.some.injEq, readEntry?_eq_some_iff fun n a => range?_eq_some_iff d,
    readEntry?_eq_some_iff haddress, readEntry?_eq_some_iff hinterface,
    readEntry?_eq_some_iff hlimit, readEntry?_eq_some_iff fun n a => uint64?_eq_some_iff,
    readEntry?_eq_some_iff fun n a => bool?_eq_some_iff]
  constructor
  · rintro ⟨_, hrange, _, hmembership, _, hgroup, _, hbind, _, htimeout, _, hfast, _, hlocal, _,
      hlimit, _, hinterface, rfl⟩
    exact ⟨hrange, hmembership, hgroup, hbind, htimeout, hfast, hlocal, hlimit, hinterface⟩
  · intro h
    exact ⟨_, h.range, _, h.membershipRange, _, h.group, _, h.bindAddress, _, h.timeout, _,
      h.fastRandom, _, h.linkLocalWorkaround, _, h.attemptLimit, _, h.multicastInterface, rfl⟩

/-- What the text of a file says of a configuration. -/
inductive SaidIn (text : String) : Config → Prop where
  /-- Without a document it says nothing. -/
  | nothing (htext : Yaml.document? text.toList = some none) : SaidIn text standard
  /-- It says what the entries of the document do. -/
  | document {root : Node (List Char)} {d : Document} {entries : List (List Char × Node Nat)}
      {c : Config} (htext : Yaml.document? text.toList = some (some root))
      (hd : Document.ofNode? root = some d) (hentries : Lists d d.root entries)
      (hc : SaidBy d entries c) : SaidIn text c

/-- A configuration is read from a text exactly if the text says it. -/
theorem ofDocument?_eq_some_iff {text : String} {c : Config} :
    ofDocument? text = some c ↔ SaidIn text c := by
  simp only [ofDocument?, Option.bind_eq_bind, Option.bind_eq_some_iff]
  constructor
  · rintro ⟨_ | root, htext, hread⟩
    · cases hread
      exact .nothing htext
    · simp only [Option.bind_eq_some_iff, entries?_eq_some_iff, ofEntries?_eq_some_iff] at hread
      obtain ⟨d, hd, entries, hentries, hc⟩ := hread
      exact .document htext hd hentries hc
  · rintro (htext | ⟨htext, hd, hentries, hc⟩)
    · exact ⟨none, htext, rfl⟩
    · refine ⟨_, htext, ?_⟩
      simp only [Option.bind_eq_some_iff]
      exact ⟨_, hd, _, (entries?_eq_some_iff _).mpr hentries, (ofEntries?_eq_some_iff _).mpr hc⟩

/-- A file is read as a text exactly if it holds the octets of the text. -/
theorem text_eq_ok_iff {content : FileContent} {text : String} :
    FileContent.text content = .ok text ↔ content = .ok text.toUTF8 := by
  constructor
  · intro hread
    unfold FileContent.text at hread
    split at hread
    · cases hread
    · split at hread
      · rename_i bytes found hfound
        cases hread
        unfold String.fromUTF8? at hfound
        split at hfound <;> cases hfound
        rfl
      · cases hread
  · rintro rfl
    exact text_toUTF8 text

/-- A file gives the configuration that its text says, if that is valid, and no other file gives
any. -/
theorem load_eq_ok_iff {content : FileContent} {c : Config} : load content = .ok c ↔
    ∃ text : String, content = .ok text.toUTF8 ∧ SaidIn text c ∧ c.Valid := by
  simp only [← text_eq_ok_iff, ← ofDocument?_eq_some_iff, load]
  rcases FileContent.text content with failure | text
  · constructor
    · intro hload
      cases hload
    · rintro ⟨text, htext, -⟩
      cases htext
  · change ofText text = .ok c ↔ _
    simp only [ofText, Except.ok.injEq, exists_eq_left']
    rcases ofDocument? text with _ | e
    · constructor
      · rintro ⟨⟩
      · rintro ⟨⟨⟩, -⟩
    · rw [check_eq_ok_iff]
      constructor
      · rintro ⟨rfl, hvalid⟩
        exact ⟨rfl, hvalid⟩
      · rintro ⟨⟨⟩, hvalid⟩
        exact ⟨rfl, hvalid⟩

end Config

end PortWarden
