import PortWarden.Proofs.RangeText

/-!
# The texts of membership ranges

A membership range is matched against a pattern: digits, a dash and digits, with blanks around
either run of digits. The digits of the pattern may be those of any script, but only ASCII ones make
a number, so that it does not matter which others there are. Since digits are neither blanks nor
dashes, a text has one match at most, and that is the one by which it spells a range. Only a plus
sign is known to ranges and not to the pattern.
-/

namespace PortWarden

open PortWarden.Text

namespace Variable

/-- A class of decimal digits, of ASCII and of any other scripts. -/
structure DigitClass where
  /-- Whether a character is a digit. -/
  holds : Char → Prop
  /-- The digits of ASCII are digits. -/
  of_isDigit : ∀ c, c.isDigit = true → holds c
  /-- No blank is a digit. -/
  not_blank : ∀ c, holds c → isBlank c = false
  /-- The dash is no digit. -/
  not_dash : ¬holds '-'
  /-- The plus sign is no digit. -/
  not_plus : ¬holds '+'

/-- The digits of ASCII alone. -/
def DigitClass.ascii : DigitClass where
  holds c := c.isDigit = true
  of_isDigit _ hc := hc
  not_blank _ := not_isBlank_of_isDigit
  not_dash := by decide
  not_plus := by decide

/-- One or more digits of a class. -/
def DigitClass.Run (digits : DigitClass) (cs : List Char) : Prop :=
  cs ≠ [] ∧ ∀ c ∈ cs, digits.holds c

/-- How a text matches the pattern for membership ranges: blanks, digits, blanks, a dash, blanks,
digits and blanks. The two runs of digits are captured. -/
inductive Matches (digits : DigitClass) (lower upper : List Char) : List Char → Prop where
  /-- The runs of digits stand before and after the dash. -/
  | bounds {first second : List Char} (hlower : digits.Run lower) (hfirst : Padded lower first)
      (hupper : digits.Run upper) (hsecond : Padded upper second) :
      Matches digits lower upper (first ++ '-' :: second)

section

variable {digits : DigitClass} {cs lower upper : List Char}

/-- A run of digits holds no blank. -/
theorem DigitClass.Run.blankless (hrun : digits.Run cs) : Blankless cs :=
  fun c hc => digits.not_blank c (hrun.2 c hc)

/-- A text matches where it is split at its first dash, with the blanks taken off. -/
theorem matches_iff : Matches digits lower upper cs ↔
    ∃ first second, PortRange.splitAtDash? cs = some (first, second) ∧ trim first = lower ∧
      trim second = upper ∧ digits.Run lower ∧ digits.Run upper := by
  constructor
  · rintro @⟨first, second, hlower, hfirst, hupper, hsecond⟩
    have hdash : '-' ∉ first := by
      rw [hfirst.mem_iff (by decide)]
      exact fun hmem => digits.not_dash (hlower.2 _ hmem)
    exact ⟨first, second, PortRange.splitAtDash?_eq_some_iff.mpr ⟨rfl, hdash⟩,
      trim_of_padded hfirst hlower.blankless, trim_of_padded hsecond hupper.blankless, hlower,
      hupper⟩
  · rintro ⟨first, second, hsplit, rfl, rfl, hlower, hupper⟩
    obtain ⟨rfl, -⟩ := PortRange.splitAtDash?_eq_some_iff.mp hsplit
    exact .bounds hlower (padded_trim first) hupper (padded_trim second)

/-- A text has one match at most. -/
theorem Matches.unique {lower' upper' : List Char} (hmatch : Matches digits lower upper cs)
    (hmatch' : Matches digits lower' upper' cs) : lower = lower' ∧ upper = upper' := by
  obtain ⟨first, second, hsplit, rfl, rfl, -⟩ := matches_iff.mp hmatch
  obtain ⟨first', second', hsplit', rfl, rfl, -⟩ := matches_iff.mp hmatch'
  rw [hsplit] at hsplit'
  cases hsplit'
  exact ⟨rfl, rfl⟩

/-- A run of digits at the start of a text is taken up to the first character that is none. -/
theorem takeDigits?_eq_some_iff {run rest : List Char} :
    takeDigits? cs = some (run, rest) ↔
      DigitClass.ascii.Run run ∧ cs = run ++ rest ∧ ∀ c ∈ rest.head?, c.isDigit = false := by
  have htake : takeDigits? cs = some (run, rest) ↔
      run ≠ [] ∧ cs.takeWhile Char.isDigit = run ∧ cs.dropWhile Char.isDigit = rest := by
    have hspan : cs.span (digit? 10 · |>.isSome) =
        (cs.takeWhile Char.isDigit, cs.dropWhile Char.isDigit) := by
      simp only [isSome_digit?_ten]
      exact List.span_eq_takeWhile_dropWhile _ _
    rw [takeDigits?, hspan]
    rcases cs.takeWhile Char.isDigit with _ | ⟨c, front⟩
    · constructor
      · intro h
        cases h
      · rintro ⟨hne, rfl, -⟩
        exact absurd rfl hne
    · constructor
      · rintro ⟨⟩
        exact ⟨List.cons_ne_nil _ _, rfl, rfl⟩
      · rintro ⟨-, rfl, rfl⟩
        rfl
  rw [htake]
  constructor
  · rintro ⟨hne, rfl, rfl⟩
    refine ⟨⟨hne, fun c hc => List.mem_takeWhile_imp hc⟩,
      List.takeWhile_append_dropWhile.symm, fun c hc => ?_⟩
    have hstop := List.head?_dropWhile_not Char.isDigit cs
    rwa [Option.mem_def.mp hc] at hstop
  · rintro ⟨⟨hne, hrun⟩, rfl, hrest⟩
    rw [List.takeWhile_append_of_pos hrun, List.dropWhile_append_of_pos hrun]
    cases rest with
    | nil => exact ⟨hne, List.append_nil run, rfl⟩
    | cons c rest => simp [hne, hrest c rfl]

/-- Blanks before a run of digits are passed over. -/
theorem takeDigits?_trimStart_eq_some_iff {run rest : List Char} :
    takeDigits? (trimStart cs) = some (run, rest) ↔
      DigitClass.ascii.Run run ∧ (∃ before, AllBlank before ∧ cs = before ++ (run ++ rest)) ∧
        ∀ c ∈ rest.head?, c.isDigit = false := by
  rw [takeDigits?_eq_some_iff]
  refine and_congr_right fun hrun => and_congr_left fun _ => ?_
  constructor
  · intro hstart
    obtain ⟨before, hbefore, hcs⟩ := exists_append_trimStart cs
    exact ⟨before, hbefore, by rwa [hstart] at hcs⟩
  · rintro ⟨before, hbefore, rfl⟩
    rw [trimStart_append hbefore, trimStart_eq_self]
    rcases run with _ | ⟨c, run⟩
    · exact absurd rfl hrun.1
    · rintro _ ⟨⟩
      exact hrun.blankless c List.mem_cons_self

/-- Behind blanks a run of digits does not go on. -/
theorem not_isDigit_of_blanks {blanks rest : List Char} (hblanks : AllBlank blanks)
    (hrest : ∀ c ∈ rest.head?, c.isDigit = false) :
    ∀ c ∈ (blanks ++ rest).head?, c.isDigit = false := by
  cases blanks with
  | nil => exact hrest
  | cons b blanks =>
    rintro _ ⟨⟩
    have hblank : isBlank b = true := hblanks b List.mem_cons_self
    by_contra hdigit
    rw [not_isBlank_of_isDigit (by simpa using hdigit)] at hblank
    cases hblank

/-- The procedure finds the match, if there is one. -/
theorem matchBounds?_eq_some_iff :
    matchBounds? cs = some (lower, upper) ↔ Matches .ascii lower upper cs := by
  constructor
  · intro hfind
    obtain ⟨⟨run, rest⟩, hfront, hfind⟩ := Option.bind_eq_some_iff.mp hfind
    dsimp only at hfind
    split at hfind
    · rename_i second hdash
      obtain ⟨⟨run', after⟩, hback, hfind⟩ := Option.bind_eq_some_iff.mp hfind
      dsimp only at hfind
      split at hfind
      · rename_i hend
        cases hfind
        obtain ⟨hlower, ⟨before, hbefore, rfl⟩, -⟩ := takeDigits?_trimStart_eq_some_iff.mp hfront
        obtain ⟨hupper, ⟨before', hbefore', rfl⟩, -⟩ :=
          takeDigits?_trimStart_eq_some_iff.mp hback
        obtain ⟨between, hbetween, hrest⟩ := exists_append_trimStart rest
        have hafter : AllBlank after := trimStart_eq_nil_iff.mp (List.isEmpty_iff.mp hend)
        rw [hrest, hdash, ← List.append_assoc lower, ← List.append_assoc before]
        exact .bounds hlower ⟨before, between, hbefore, hbetween, rfl⟩ hupper
          ⟨before', after, hbefore', hafter, rfl⟩
      · cases hfind
    · cases hfind
  · rintro @⟨first, second, hlower, hfirst, hupper, hsecond⟩
    obtain ⟨before, between, hbefore, hbetween, rfl⟩ := hfirst
    obtain ⟨before', after, hbefore', hafter, rfl⟩ := hsecond
    have hfront : takeDigits? (trimStart
        ((before ++ (lower ++ between)) ++ '-' :: (before' ++ (upper ++ after)))) =
          some (lower, between ++ '-' :: (before' ++ (upper ++ after))) :=
      takeDigits?_trimStart_eq_some_iff.mpr
        ⟨hlower, ⟨before, hbefore, by simp⟩, not_isDigit_of_blanks hbetween (by rintro _ ⟨⟩; rfl)⟩
    have hdash : trimStart (between ++ '-' :: (before' ++ (upper ++ after))) =
        '-' :: (before' ++ (upper ++ after)) := by
      rw [trimStart_append hbetween, trimStart_eq_self]
      rintro _ ⟨⟩
      rfl
    have hback : takeDigits? (trimStart (before' ++ (upper ++ after))) = some (upper, after) :=
      takeDigits?_trimStart_eq_some_iff.mpr
        ⟨hupper, ⟨before', hbefore', rfl⟩,
          by simpa using @not_isDigit_of_blanks after [] hafter (by rintro _ ⟨⟩)⟩
    simp only [matchBounds?, hfront, hdash, hback, Option.bind_eq_bind, Option.bind_some,
      trimStart_eq_nil_iff.mpr hafter]
    rfl

/-- The digits of a decimal numeral are digits of any class. -/
theorem DigitClass.Run.of_decimalNumeral {n : Nat} (hcs : DecimalNumeral cs n) :
    digits.Run cs :=
  ⟨hcs.ne_nil, fun c hc => digits.of_isDigit c (hcs.digits c hc)⟩

/-- A run of digits is a signed numeral exactly if it is a decimal numeral. -/
theorem DigitClass.Run.signedNumeral_iff {n : Nat} (hrun : digits.Run cs) :
    SignedNumeral cs n ↔ DecimalNumeral cs n :=
  signedNumeral_iff_of_no_plus fun hmem => digits.not_plus (hrun.2 _ hmem)

end

variable {value : String} {r : PortRange}

/-- The range of a text is the one whose bounds the procedure finds as numbers, if that is
usable. -/
theorem membershipRange?_eq_some_iff_bounds :
    membershipRange? value = some r ↔ ∃ lower upper,
      matchBounds? value.toList = some (lower, upper) ∧ readUInt16 lower = .ok r.lower ∧
        readUInt16 upper = .ok r.upper ∧ r.Usable := by
  constructor
  · intro hread
    obtain ⟨⟨lower, upper⟩, hfind, hread⟩ := Option.bind_eq_some_iff.mp hread
    obtain ⟨first, hlower, hread⟩ := Option.bind_eq_some_iff.mp hread
    obtain ⟨second, hupper, hread⟩ := Option.bind_eq_some_iff.mp hread
    obtain ⟨rfl, hr⟩ := PortRange.check_eq_ok_iff.mp (toOption_eq_some_iff.mp hread)
    exact ⟨lower, upper, hfind, toOption_eq_some_iff.mp hlower, toOption_eq_some_iff.mp hupper, hr⟩
  · rintro ⟨lower, upper, hfind, hlower, hupper, hr⟩
    have hcheck : r.check = .ok r := PortRange.check_eq_ok_iff.mpr ⟨rfl, hr⟩
    simp only [membershipRange?, hfind, hlower, hupper, Option.bind_eq_bind, Option.bind_some]
    exact toOption_eq_some_iff.mpr hcheck

/-- Whatever is a digit for the pattern, the range of a text is the one whose bounds it captures as
numbers, if that is usable. -/
theorem membershipRange?_eq_some_iff_matches (digits : DigitClass) :
    membershipRange? value = some r ↔ ∃ lower upper, Matches digits lower upper value.toList ∧
      readUInt16 lower = .ok r.lower ∧ readUInt16 upper = .ok r.upper ∧ r.Usable := by
  simp only [membershipRange?_eq_some_iff_bounds, matchBounds?_eq_some_iff, readUInt16_eq_ok_iff]
  generalize value.toList = cs
  constructor
  · rintro ⟨lower, upper, @⟨first, second, hlower, hfirst, hupper, hsecond⟩, hrest⟩
    have hrun {cs : List Char} (hcs : DigitClass.ascii.Run cs) : digits.Run cs :=
      ⟨hcs.1, fun c hc => digits.of_isDigit c (hcs.2 c hc)⟩
    exact ⟨lower, upper, .bounds (hrun hlower) hfirst (hrun hupper) hsecond, hrest⟩
  · rintro ⟨lower, upper, @⟨first, second, hlower, hfirst, hupper, hsecond⟩, hfirst', hsecond', hr⟩
    -- what the pattern captures has no plus sign, so that only digits of ASCII make a number
    have hrun {cs : List Char} {n : Nat} (hcs : digits.Run cs) (hn : SignedNumeral cs n) :
        DigitClass.ascii.Run cs :=
      .of_decimalNumeral (hcs.signedNumeral_iff.mp hn)
    exact ⟨lower, upper, .bounds (hrun hlower hfirst') hfirst (hrun hupper hsecond') hsecond,
      hfirst', hsecond', hr⟩

/-- A text gives a membership range exactly if it holds no plus sign and is read as that range. -/
theorem membershipRange?_eq_some_iff :
    membershipRange? value = some r ↔ '+' ∉ value.toList ∧ PortRange.read value = .ok r := by
  simp only [membershipRange?_eq_some_iff_matches .ascii, PortRange.read_eq_ok_iff,
    readUInt16_eq_ok_iff]
  constructor
  · rintro ⟨lower, upper, hmatch, hlower, hupper, hr⟩
    generalize value.toList = cs at hmatch ⊢
    obtain @⟨first, second, hrun, hfirst, hrun', hsecond⟩ := hmatch
    refine ⟨?_, .bounds hlower hfirst hupper hsecond, hr⟩
    simp only [List.mem_append, List.mem_cons, not_or]
    refine ⟨?_, by decide, ?_⟩
    · rw [hfirst.mem_iff (by decide)]
      exact fun hmem => DigitClass.ascii.not_plus (hrun.2 _ hmem)
    · rw [hsecond.mem_iff (by decide)]
      exact fun hmem => DigitClass.ascii.not_plus (hrun'.2 _ hmem)
  · rintro ⟨hplus, hspelled, hr⟩
    generalize value.toList = cs at hplus hspelled ⊢
    obtain @⟨first, second, lower, upper, hlower, hfirst, hupper, hsecond⟩ := hspelled
    simp only [List.mem_append, List.mem_cons, not_or] at hplus
    have hlower' : DecimalNumeral lower r.lower.toNat :=
      (signedNumeral_iff_of_no_plus fun hmem =>
        hplus.1 ((hfirst.mem_iff (by decide)).mpr hmem)).mp hlower
    have hupper' : DecimalNumeral upper r.upper.toNat :=
      (signedNumeral_iff_of_no_plus fun hmem =>
        hplus.2.2 ((hsecond.mem_iff (by decide)).mpr hmem)).mp hupper
    exact ⟨lower, upper, .bounds (.of_decimalNumeral hlower') hfirst (.of_decimalNumeral hupper')
      hsecond, hlower, hupper, hr⟩

/-- The range that is read is that of the text, or else the default one. -/
theorem readMembershipRange_fst (value : String) (w : Logged Host) :
    (readMembershipRange value w).1 =
      .ok ((membershipRange? value).getD defaultMembershipRange) := by
  unfold readMembershipRange
  cases membershipRange? value <;> rfl

/-- How a value of the variable for the membership range is read, where the characters of a class
are digits for the pattern. -/
structure ReadsLikeRange (digits : DigitClass) (value : String) : Prop where
  /-- Without a plus sign it is the range that the text is read as, or else the default one. -/
  unsigned : '+' ∉ value.toList → ∀ w, (readMembershipRange value w).1 =
    .ok ((PortRange.read value).toOption.getD defaultMembershipRange)
  /-- With a plus sign it is the default one. -/
  signed : '+' ∈ value.toList → ∀ w,
    (readMembershipRange value w).1 = .ok defaultMembershipRange
  /-- A text that matches the pattern does so in one way. -/
  captured : ∀ {lower upper lower' upper'}, Matches digits lower upper value.toList →
    Matches digits lower' upper' value.toList → lower = lower' ∧ upper = upper'
  /-- Of a text that matches, what is captured are the bounds, if both are numbers of 16 bits and
  make a usable range. -/
  matched : ∀ {lower upper} {r : PortRange}, Matches digits lower upper value.toList →
    readUInt16 lower = .ok r.lower → readUInt16 upper = .ok r.upper → 1 ≤ r.lower →
    r.lower ≤ r.upper → ∀ w, (readMembershipRange value w).1 = .ok r
  /-- If not, or if the text does not match, it is the default one. -/
  unmatched : (∀ lower upper, ∀ r : PortRange, Matches digits lower upper value.toList →
    readUInt16 lower = .ok r.lower → readUInt16 upper = .ok r.upper → 1 ≤ r.lower →
    ¬r.lower ≤ r.upper) → ∀ w, (readMembershipRange value w).1 = .ok defaultMembershipRange

/-- A membership range is read like any range, except that it has no plus sign and that the default
one stands in for what cannot be read. Which characters besides those of ASCII count as digits makes
no difference. -/
theorem membership_read_like_range (digits : DigitClass) (value : String) :
    ReadsLikeRange digits value := by
  constructor
  case unsigned =>
    intro hplus w
    have hsame : membershipRange? value = (PortRange.read value).toOption := by
      ext r
      rw [membershipRange?_eq_some_iff, toOption_eq_some_iff]
      exact and_iff_right hplus
    rw [readMembershipRange_fst, hsame]
  case signed =>
    intro hplus w
    have hnone : membershipRange? value = none :=
      Option.eq_none_iff_forall_ne_some.mpr fun r hr =>
        (membershipRange?_eq_some_iff.mp hr).1 hplus
    rw [readMembershipRange_fst, hnone, Option.getD_none]
  case captured => exact Matches.unique
  case matched =>
    intro lower upper r hmatch hlower hupper hpositive hle w
    have hsome : membershipRange? value = some r :=
      (membershipRange?_eq_some_iff_matches digits).mpr
        ⟨lower, upper, hmatch, hlower, hupper, PortRange.usable_of_one_le hpositive hle⟩
    rw [readMembershipRange_fst, hsome, Option.getD_some]
  case unmatched =>
    intro hnever w
    have hnone : membershipRange? value = none := by
      refine Option.eq_none_iff_forall_ne_some.mpr fun r hr => ?_
      obtain ⟨lower, upper, hmatch, hlower, hupper, husable⟩ :=
        (membershipRange?_eq_some_iff_matches digits).mp hr
      obtain ⟨hpositive, hle⟩ := PortRange.usable_iff.mp husable
      exact hnever lower upper r hmatch hlower hupper hpositive hle
    rw [readMembershipRange_fst, hnone, Option.getD_none]

/-- The digits of ASCII and the Arabic-Indic ones. -/
def DigitClass.arabicIndic : DigitClass where
  holds c := c.isDigit = true ∨ 0x660 ≤ c.toNat ∧ c.toNat ≤ 0x669
  of_isDigit _ hc := .inl hc
  not_blank c hc := by
    obtain hascii | hrange := hc
    · exact not_isBlank_of_isDigit hascii
    · simp only [isBlank, Bool.or_eq_false_iff, Bool.and_eq_false_iff, decide_eq_false_iff_not,
        beq_eq_false_iff_ne]
      omega
  not_dash := by decide
  not_plus := by decide

/-- Bounds in Arabic-Indic digits match the pattern and make no number, so that the default range is
used, while a no-break space and leading zeros do no harm. -/
theorem membership_read_like_range_in_arabic_digits :
    Matches .arabicIndic "\u0664\u0662\u0660\u0660\u0660".toList "43000".toList
        "\u0664\u0662\u0660\u0660\u0660-43000".toList ∧
      (readMembershipRange "\u0664\u0662\u0660\u0660\u0660-43000" { state := {} }).1 =
        .ok defaultMembershipRange ∧
      (readMembershipRange "\u00a0042000 -43000" { state := {} }).1 = .ok ⟨42000, 43000⟩ ∧
      (readMembershipRange "+42000-43000" { state := {} }).1 = .ok defaultMembershipRange := by
  have hread (value : String) : ReadsLikeRange .arabicIndic value :=
    membership_read_like_range .arabicIndic value
  refine ⟨?_, ((hread _).unsigned (by decide) _).trans (by rfl),
    ((hread _).unsigned (by decide) _).trans (by rfl), (hread _).signed (by decide) _⟩
  have hrun (cs : List Char) (hne : cs ≠ [])
      (hcs : cs.all (fun c => c.isDigit || 0x660 ≤ c.toNat && c.toNat ≤ 0x669) = true) :
      DigitClass.arabicIndic.Run cs :=
    ⟨hne, fun c hc => by simpa [DigitClass.arabicIndic] using List.all_eq_true.mp hcs c hc⟩
  exact .bounds (hrun _ (by decide) rfl) (.refl _) (hrun _ (by decide) rfl) (.refl _)

end Variable

end PortWarden
