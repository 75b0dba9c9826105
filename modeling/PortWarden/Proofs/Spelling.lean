import Mathlib.Data.List.Induction
import Mathlib.Data.List.TakeWhile
import PortWarden.Proofs.Numerals
import PortWarden.Text.Blank

/-!
# Numbers as they may be spelled

Before a text is read as a number the blanks around it are taken off. What is left is read exactly
if it is spelled as a number within the bounds: by digits, of which the first may be zeros, and for
decimal numbers after a plus sign if one is wanted. A decimal number that is spelled without leading
zeros is spelled by its numeral.
-/

namespace PortWarden.Text

/-! ## Blanks -/

/-- A text of blanks only. -/
def AllBlank (s : List Char) : Prop := ∀ c ∈ s, isBlank c = true

/-- Whether there are blanks only can be seen from the characters. -/
instance (s : List Char) : Decidable (AllBlank s) := List.decidableBAll _ s

/-- A text that holds no blank. -/
def Blankless (s : List Char) : Prop := ∀ c ∈ s, isBlank c = false

/-- Whether there is no blank can be seen from the characters. -/
instance (s : List Char) : Decidable (Blankless s) := List.decidableBAll _ s

/-- A text that consists of another one with blanks before and after it. -/
def Padded (core s : List Char) : Prop :=
  ∃ before after, AllBlank before ∧ AllBlank after ∧ s = before ++ (core ++ after)

/-- A text has no blanks around itself. -/
theorem Padded.refl (s : List Char) : Padded s s :=
  ⟨[], [], fun _ hc => (by cases hc), fun _ hc => (by cases hc), by simp⟩

/-- Blanks at the start of a text are taken off it. -/
theorem trimStart_append {before : List Char} (hbefore : AllBlank before) (s : List Char) :
    trimStart (before ++ s) = trimStart s :=
  List.dropWhile_append_of_pos hbefore

/-- What is taken off the start of a text are blanks. -/
theorem exists_append_trimStart (s : List Char) :
    ∃ before, AllBlank before ∧ s = before ++ trimStart s :=
  ⟨s.takeWhile isBlank, fun _ hc => List.mem_takeWhile_imp hc,
    List.takeWhile_append_dropWhile.symm⟩

/-- Nothing is left of a text exactly if there are blanks only. -/
theorem trimStart_eq_nil_iff {s : List Char} : trimStart s = [] ↔ AllBlank s :=
  List.dropWhile_eq_nil_iff

/-- A text that does not start with a blank stays as it is. -/
theorem trimStart_eq_self {s : List Char} (hhead : ∀ c ∈ s.head?, isBlank c = false) :
    trimStart s = s := by
  cases s with
  | nil => rfl
  | cons c cs => simp [trimStart, hhead c rfl]

/-- Blanks around a text that holds none are taken off it. -/
theorem trim_of_padded {core s : List Char} (hs : Padded core s) (hcore : Blankless core) :
    trim s = core := by
  obtain ⟨before, after, hbefore, hafter, rfl⟩ := hs
  have hend : trimEnd (core ++ after) = core := by
    have hhead : ∀ c ∈ core.reverse.head?, isBlank c = false := fun c hc =>
      hcore c (List.mem_reverse.mp (List.mem_of_mem_head? hc))
    have hlast : core.reverse.dropWhile isBlank = core.reverse := trimStart_eq_self hhead
    rw [trimEnd, List.reverse_append, List.dropWhile_append_of_pos, hlast, List.reverse_reverse]
    exact fun c hc => hafter c (List.mem_reverse.mp hc)
  rw [trim, trimStart_append hbefore]
  cases core with
  | nil =>
    rw [List.nil_append, trimStart_eq_nil_iff.mpr hafter]
    rfl
  | cons c cs =>
    rwa [trimStart_eq_self]
    rintro _ ⟨⟩
    exact hcore c List.mem_cons_self

/-- What is taken off a text are blanks around it. -/
theorem padded_trim (s : List Char) : Padded (trim s) s := by
  obtain ⟨before, hbefore, hstart⟩ := exists_append_trimStart s
  obtain ⟨after, hafter, hend⟩ := exists_append_trimStart (trimStart s).reverse
  refine ⟨before, after.reverse, hbefore, fun c hc => hafter c (List.mem_reverse.mp hc), ?_⟩
  have hboth := congrArg List.reverse hend
  rw [List.reverse_reverse, List.reverse_append] at hboth
  rw [trim, trimEnd]
  exact hstart.trans (congrArg (before ++ ·) hboth)

/-- What is left of a text without the blanks around it has a property that no text with blanks has
exactly if the text consists of one with that property and of blanks around that. -/
theorem trim_iff {s : List Char} {holds : List Char → Prop}
    (hholds : ∀ core, holds core → Blankless core) :
    holds (trim s) ↔ ∃ core, holds core ∧ Padded core s := by
  constructor
  · exact fun htrim => ⟨trim s, htrim, padded_trim s⟩
  · rintro ⟨core, hcore, hpadded⟩
    rwa [trim_of_padded hpadded (hholds core hcore)]

/-- A character that is no blank is in a text with blanks around it if it is in the text. -/
theorem Padded.mem_iff {core s : List Char} {c : Char} (hs : Padded core s)
    (hc : isBlank c = false) : c ∈ s ↔ c ∈ core := by
  obtain ⟨before, after, hbefore, hafter, rfl⟩ := hs
  have hnot {blanks : List Char} (hblanks : AllBlank blanks) : c ∉ blanks := fun hmem => by
    rw [hblanks c hmem] at hc
    cases hc
  simp [hnot hbefore, hnot hafter]

/-! ## Digits -/

/-- The value of digits of a base, behind digits of the value `acc`. -/
def digitsValue (base acc : Nat) (cs : List Char) : Nat :=
  cs.foldl (fun value c => value * base + (digit? base c).getD 0) acc

/-- One or more digits of a base of a certain value. Zeros may lead. -/
structure Numeral (base : Nat) (cs : List Char) (n : Nat) : Prop where
  /-- There is a digit. -/
  ne_nil : cs ≠ []
  /-- There are digits only. -/
  digits : ∀ c ∈ cs, (digit? base c).isSome = true
  /-- Their value, the most significant first. -/
  value : digitsValue base 0 cs = n

/-- One or more decimal digits of a certain value. Zeros may lead. -/
structure DecimalNumeral (cs : List Char) (n : Nat) : Prop where
  /-- There is a digit. -/
  ne_nil : cs ≠ []
  /-- There are digits of ASCII only. -/
  digits : ∀ c ∈ cs, c.isDigit = true
  /-- Their value, the most significant first. -/
  value : Nat.ofDigitChars 10 cs 0 = n

/-- A decimal numeral of a certain value, for which a plus sign may stand in front. -/
def SignedNumeral (cs : List Char) (n : Nat) : Prop :=
  DecimalNumeral cs n ∨ ∃ digits, cs = '+' :: digits ∧ DecimalNumeral digits n

/-- More digits do not make a value smaller. -/
theorem le_digitsValue {base : Nat} (hbase : 0 < base) (acc : Nat) (cs : List Char) :
    acc ≤ digitsValue base acc cs := by
  induction cs generalizing acc with
  | nil => exact Nat.le_refl acc
  | cons c cs ih =>
    have hfront : acc ≤ acc * base + (digit? base c).getD 0 :=
      (Nat.le_mul_of_pos_right acc hbase).trans (Nat.le_add_right _ _)
    exact hfront.trans (ih _)

/-- Digits are read exactly if they are digits of a value within the bound. -/
theorem readDigits_eq_ok_iff {base bound acc n : Nat} (hbase : 0 < base) (hacc : acc ≤ bound)
    {cs : List Char} : readDigits base bound acc cs = .ok n ↔
      (∀ c ∈ cs, (digit? base c).isSome = true) ∧ digitsValue base acc cs = n ∧ n ≤ bound := by
  induction cs generalizing acc with
  | nil =>
    simp only [readDigits, digitsValue, Except.ok.injEq, List.not_mem_nil, false_imp_iff,
      implies_true, true_and, List.foldl_nil]
    constructor
    · rintro rfl
      exact ⟨rfl, hacc⟩
    · exact fun h => h.1
  | cons c cs ih =>
    have hvalue : digitsValue base acc (c :: cs) =
        digitsValue base (acc * base + (digit? base c).getD 0) cs := rfl
    rw [readDigits, List.forall_mem_cons, hvalue]
    rcases digit? base c with _ | d
    · simp
    · simp only [Option.isSome_some, true_and, Option.getD_some]
      have hmore := le_digitsValue hbase (acc * base + d) cs
      by_cases hfits : acc * base + d ≤ bound
      · rw [if_pos hfits, ih hfits]
      · rw [if_neg hfits]
        constructor
        · intro h
          cases h
        · rintro ⟨-, rfl, hbound⟩
          omega

/-- A text is read as a number without a sign exactly if it is a numeral of a value within the
bound. -/
theorem readUnsigned_eq_ok_iff {base bound n : Nat} (hbase : 0 < base) {cs : List Char} :
    readUnsigned base bound cs = .ok n ↔ Numeral base cs n ∧ n ≤ bound := by
  cases cs with
  | nil =>
    constructor
    · intro h
      cases h
    · exact fun h => absurd rfl h.1.ne_nil
  | cons c cs =>
    rw [readUnsigned, readDigits_eq_ok_iff hbase (Nat.zero_le _)]
    · exact ⟨fun h => ⟨⟨List.cons_ne_nil c cs, h.1, h.2.1⟩, h.2.2⟩,
        fun h => ⟨h.1.digits, h.1.value, h.2⟩⟩
    · simp

/-- The value of a decimal digit is its place after zero, and no other character has one. -/
theorem digit?_ten (c : Char) :
    digit? 10 c = if c.isDigit = true then some (c.toNat - '0'.toNat) else none := by
  have hdigit : c.isDigit = true ↔ ('0' ≤ c && c ≤ '9') = true := by
    simp [Char.isDigit, Char.le_def, GE.ge]
  have hrange : c.isDigit = true ↔ 48 ≤ c.toNat ∧ c.toNat ≤ 57 := Char.isDigit_iff_toNat
  by_cases h : c.isDigit = true
  · have hlt : c.toNat - '0'.toNat < 10 := by
      have := hrange.mp h
      change c.toNat - 48 < 10
      omega
    simp only [digit?, hdigit.mp h, if_pos h, if_true, Option.filter_some, decide_eq_true hlt]
  · rw [if_neg h, digit?, if_neg (mt hdigit.mpr h), Option.filter_eq_none_iff]
    intro value hvalue
    split at hvalue
    · cases hvalue
      simp
    · split at hvalue
      · cases hvalue
        simp
      · cases hvalue

/-- The decimal digits are those of ASCII. -/
theorem isSome_digit?_ten (c : Char) : (digit? 10 c).isSome = c.isDigit := by
  rw [digit?_ten]
  cases c.isDigit <;> rfl

/-- The decimal numerals are those of base ten. -/
theorem numeral_ten_iff {cs : List Char} {n : Nat} :
    Numeral 10 cs n ↔ DecimalNumeral cs n := by
  have hvalue (acc : Nat) (hdigits : ∀ c ∈ cs, c.isDigit = true) :
      digitsValue 10 acc cs = Nat.ofDigitChars 10 cs acc := by
    clear n
    induction cs generalizing acc with
    | nil => rfl
    | cons c cs ih =>
      obtain ⟨hc, hcs⟩ := List.forall_mem_cons.mp hdigits
      have hfirst : digitsValue 10 acc (c :: cs) =
          digitsValue 10 (acc * 10 + (digit? 10 c).getD 0) cs := rfl
      rw [hfirst, ih _ hcs, Nat.ofDigitChars_cons, digit?_ten, if_pos hc, Option.getD_some,
        Nat.mul_comm]
  constructor
  · rintro ⟨hne, hdigits, hn⟩
    have hdigits : ∀ c ∈ cs, c.isDigit = true := fun c hc =>
      (isSome_digit?_ten c).symm.trans (hdigits c hc)
    exact ⟨hne, hdigits, (hvalue 0 hdigits).symm.trans hn⟩
  · rintro ⟨hne, hdigits, hn⟩
    exact ⟨hne, fun c hc => (isSome_digit?_ten c).trans (hdigits c hc),
      (hvalue 0 hdigits).trans hn⟩

/-- The numeral of a number is one of the texts that spell it. -/
theorem decimalNumeral_decimal (n : Nat) : DecimalNumeral (decimal n) n :=
  ⟨Nat.toDigits_ne_nil, fun _ hc => Nat.isDigit_of_mem_toDigits (by decide) (by decide) hc,
    Nat.ofDigitChars_toDigits (by decide) (by decide)⟩

/-- A decimal numeral that does not start with a needless zero is the numeral of its value. -/
theorem DecimalNumeral.eq_decimal {cs : List Char} {n : Nat} (hcs : DecimalNumeral cs n)
    (hzero : cs.head? = some '0' → cs.length = 1) : cs = decimal n := by
  induction cs using List.reverseRecOn generalizing n with
  | nil => exact absurd rfl hcs.ne_nil
  | append_singleton front c ih =>
    obtain ⟨-, hdigits, rfl⟩ := hcs
    obtain ⟨hfront, hc⟩ : (∀ c ∈ front, c.isDigit = true) ∧ c.isDigit = true := by
      simpa [or_imp, forall_and] using hdigits
    have hrange : 48 ≤ c.toNat ∧ c.toNat ≤ 57 := Char.isDigit_iff_toNat.mp hc
    have hlast : Nat.digitChar (c.toNat - 48) = c := by
      apply Char.toNat_inj.mp
      rw [Nat.toNat_digitChar_of_lt_ten (by omega)]
      omega
    have hvalue : Nat.ofDigitChars 10 (front ++ [c]) 0 =
        10 * Nat.ofDigitChars 10 front 0 + (c.toNat - 48) := by
      simp [Nat.ofDigitChars_append, Nat.ofDigitChars_cons]
    rw [hvalue]
    by_cases hne : front = []
    · subst hne
      have hsmall : 10 * Nat.ofDigitChars 10 [] 0 + (c.toNat - 48) = c.toNat - 48 := by simp
      rw [hsmall, decimal, Nat.toDigits_of_lt_base (by omega), hlast]
      rfl
    · have hlong : (front ++ [c]).length ≠ 1 := by simpa using hne
      have hhead : front.head? ≠ some '0' := fun h =>
        hlong (hzero (by rw [List.head?_append, h, Option.some_or]))
      have hdecimal := ih ⟨hne, hfront, rfl⟩ fun h => absurd h hhead
      have hpos : 0 < Nat.ofDigitChars 10 front 0 := by
        by_contra h
        have hnil : Nat.ofDigitChars 10 front 0 = 0 := by omega
        rw [hnil] at hdecimal
        exact hhead (by rw [hdecimal]; rfl)
      have hdigit : c.toNat - 48 < 10 := by omega
      have happend := Nat.toDigits_append_toDigits (show 1 < 10 by decide) hpos hdigit
      rw [Nat.toDigits_of_lt_base hdigit, hlast] at happend
      rw [decimal, ← happend]
      exact congrArg (· ++ [c]) hdecimal

/-! ## Decimal numbers -/

/-- A character of a signed numeral is a digit or a plus sign. -/
theorem SignedNumeral.digit_or_plus {cs : List Char} {n : Nat} (hcs : SignedNumeral cs n)
    {c : Char} (hc : c ∈ cs) : c.isDigit = true ∨ c = '+' := by
  obtain hplain | ⟨digits, rfl, hdigits⟩ := hcs
  · exact .inl (hplain.digits c hc)
  · obtain rfl | hc := List.mem_cons.mp hc
    · exact .inr rfl
    · exact .inl (hdigits.digits c hc)

/-- A decimal digit is no blank. -/
theorem not_isBlank_of_isDigit {c : Char} (hc : c.isDigit = true) : isBlank c = false := by
  have hrange : 48 ≤ c.toNat ∧ c.toNat ≤ 57 := Char.isDigit_iff_toNat.mp hc
  simp only [isBlank, Bool.or_eq_false_iff, Bool.and_eq_false_iff, decide_eq_false_iff_not,
    beq_eq_false_iff_ne]
  omega

/-- A signed numeral holds no blank. -/
theorem SignedNumeral.blankless {cs : List Char} {n : Nat} (hcs : SignedNumeral cs n) :
    Blankless cs := by
  intro c hc
  obtain hdigit | rfl := hcs.digit_or_plus hc
  · exact not_isBlank_of_isDigit hdigit
  · rfl

/-- A signed numeral without a plus sign is a decimal numeral. -/
theorem signedNumeral_iff_of_no_plus {cs : List Char} {n : Nat} (hplus : '+' ∉ cs) :
    SignedNumeral cs n ↔ DecimalNumeral cs n := by
  constructor
  · rintro (hplain | ⟨digits, rfl, -⟩)
    · exact hplain
    · exact absurd List.mem_cons_self hplus
  · exact .inl

/-- A text is read as a decimal number exactly if it is a signed numeral of a value within the
bound. -/
theorem readNat_eq_ok_iff {bound n : Nat} {cs : List Char} :
    readNat bound cs = .ok n ↔ SignedNumeral cs n ∧ n ≤ bound := by
  have hread (digits : List Char) :
      readUnsigned 10 bound digits = .ok n ↔ DecimalNumeral digits n ∧ n ≤ bound := by
    rw [readUnsigned_eq_ok_iff (by decide), numeral_ten_iff]
  by_cases hplus : ∃ digits, cs = '+' :: digits
  · obtain ⟨digits, rfl⟩ := hplus
    have hsigned : SignedNumeral ('+' :: digits) n ↔ DecimalNumeral digits n := by
      constructor
      · rintro (hplain | ⟨_, ⟨⟩, hdigits⟩)
        · exact absurd (hplain.digits '+' List.mem_cons_self) (by decide)
        · exact hdigits
      · exact fun hdigits => .inr ⟨digits, rfl, hdigits⟩
    rw [hsigned, ← hread]
    cases digits with
    | nil => simp [readNat, readUnsigned]
    | cons d ds => rfl
  · have hplain : readNat bound cs = readUnsigned 10 bound cs := by
      unfold readNat
      split
      · exact absurd ⟨_, rfl⟩ hplus
      · exact absurd ⟨_, rfl⟩ hplus
      · rfl
    rw [hplain, hread]
    refine and_congr_left fun _ => ⟨.inl, ?_⟩
    rintro (hdigits | ⟨digits, rfl, -⟩)
    · exact hdigits
    · exact absurd ⟨digits, rfl⟩ hplus

/-- A number that is read within a bound may be kept in a type that holds just the numbers up to
it. -/
theorem map_ofNat_eq_ok_iff {ε α : Type} {bound : Nat} {ofNat : Nat → α} {toNat : α → Nat}
    (hto : ∀ n ≤ bound, toNat (ofNat n) = n) (hof : ∀ a, ofNat (toNat a) = a)
    {result : Except ε Nat} (hresult : ∀ n, result = .ok n → n ≤ bound) {a : α} :
    result.map ofNat = .ok a ↔ result = .ok (toNat a) := by
  rcases result with fault | n
  · simp [Except.map]
  · simp only [Except.map, Except.ok.injEq]
    constructor
    · rintro rfl
      exact (hto n (hresult n rfl)).symm
    · rintro rfl
      exact hof a

/-- What was read is there exactly if nothing was wrong. -/
theorem toOption_eq_some_iff {ε α : Type} {result : Except ε α} {a : α} :
    result.toOption = some a ↔ result = .ok a := by
  cases result <;> simp [Except.toOption]

/-- A text is read as a number of 16 bits exactly if it is a signed numeral of it. -/
theorem readUInt16_eq_ok_iff {cs : List Char} {n : UInt16} :
    readUInt16 cs = .ok n ↔ SignedNumeral cs n.toNat := by
  have hnumber : readUInt16 cs = .ok n ↔ readNat maxUInt16 cs = .ok n.toNat :=
    map_ofNat_eq_ok_iff (fun _ hn => UInt16.toNat_ofNat_of_lt' (Nat.lt_succ_of_le hn))
      (fun n => n.ofNat_toNat) fun _ hn => (readNat_eq_ok_iff.mp hn).2
  rw [hnumber, readNat_eq_ok_iff]
  exact and_iff_left (Nat.le_of_lt_succ n.toNat_lt)

/-- A text is read as a number of 64 bits exactly if it is a signed numeral of it. -/
theorem readUInt64_eq_ok_iff {cs : List Char} {n : UInt64} :
    readUInt64 cs = .ok n ↔ SignedNumeral cs n.toNat := by
  have hnumber : readUInt64 cs = .ok n ↔ readNat maxUInt64 cs = .ok n.toNat :=
    map_ofNat_eq_ok_iff (fun _ hn => UInt64.toNat_ofNat_of_lt' (Nat.lt_succ_of_le hn))
      (fun n => n.ofNat_toNat) fun _ hn => (readNat_eq_ok_iff.mp hn).2
  rw [hnumber, readNat_eq_ok_iff]
  exact and_iff_left (Nat.le_of_lt_succ n.toNat_lt)

end PortWarden.Text
