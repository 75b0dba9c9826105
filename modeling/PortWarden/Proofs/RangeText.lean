import PortWarden.CommandLine.Command
import PortWarden.Proofs.Spelling
import PortWarden.Proofs.Uniformity
import PortWarden.Proofs.Validity

/-!
# The texts of ranges

A range is spelled by two numbers with a dash between them and blanks around either. The text is
split at its first dash; since neither blanks nor numbers hold one, no other dash can be meant, and
what is read is exactly what is spelled.
-/

namespace PortWarden

open PortWarden.Text

namespace PortRange

/-- A text that spells a range: two numbers with a dash between them, and blanks around either. -/
inductive SpelledBy (r : PortRange) : List Char → Prop where
  /-- The numbers are the bounds. -/
  | bounds {first second lower upper : List Char} (hlower : SignedNumeral lower r.lower.toNat)
      (hfirst : Padded lower first) (hupper : SignedNumeral upper r.upper.toNat)
      (hsecond : Padded upper second) : SpelledBy r (first ++ '-' :: second)

/-- A text is split at its first dash, if it holds one. -/
theorem splitAtDash?_eq_some_iff {cs before after : List Char} :
    splitAtDash? cs = some (before, after) ↔ cs = before ++ '-' :: after ∧ '-' ∉ before := by
  induction cs generalizing before with
  | nil => simp [splitAtDash?]
  | cons c cs ih =>
    rw [splitAtDash?]
    by_cases hc : c = '-'
    · subst hc
      cases before with
      | nil => simp [eq_comm]
      | cons d before =>
        simp only [if_true, Option.some.injEq, Prod.mk.injEq, List.cons_append, List.cons.injEq,
          List.mem_cons, not_or]
        constructor
        · rintro ⟨⟨⟩, -⟩
        · rintro ⟨⟨rfl, -⟩, hd, -⟩
          exact absurd rfl hd
    · rw [if_neg hc, Option.map_eq_some_iff]
      constructor
      · rintro ⟨⟨front, rest⟩, hsplit, ⟨⟩⟩
        obtain ⟨rfl, hdash⟩ := ih.mp hsplit
        exact ⟨rfl, by simp [hdash, Ne.symm hc]⟩
      · rintro ⟨hcs, hdash⟩
        cases before with
        | nil => exact absurd (List.cons.inj hcs).1 hc
        | cons d before =>
          obtain ⟨rfl, rfl⟩ := List.cons.inj hcs
          exact ⟨(before, after), ih.mpr ⟨rfl, fun h => hdash (.tail _ h)⟩, rfl⟩

/-- The text of a number with blanks around it holds no dash. -/
theorem dash_not_mem {first lower : List Char} {n : Nat} (hlower : SignedNumeral lower n)
    (hfirst : Padded lower first) : '-' ∉ first := by
  rw [hfirst.mem_iff (by decide)]
  intro hmem
  rcases hlower.digit_or_plus hmem with hc | hc <;> cases hc

/-- The bounds that are read of a text are those that it spells. -/
theorem readBounds?_eq_some_iff {cs : List Char} {r : PortRange} :
    readBounds? cs = some r ↔ r.SpelledBy cs := by
  have hbound (text : List Char) (n : UInt16) :
      (readUInt16 text).toOption = some n ↔ SignedNumeral text n.toNat := by
    rw [toOption_eq_some_iff, readUInt16_eq_ok_iff]
  constructor
  · intro hread
    obtain ⟨⟨first, second⟩, hsplit, hrest⟩ := Option.bind_eq_some_iff.mp hread
    obtain ⟨lower, hlower, hrest⟩ := Option.bind_eq_some_iff.mp hrest
    obtain ⟨upper, hupper, ⟨⟩⟩ := Option.bind_eq_some_iff.mp hrest
    obtain ⟨rfl, -⟩ := splitAtDash?_eq_some_iff.mp hsplit
    exact .bounds ((hbound _ _).mp hlower) (padded_trim first) ((hbound _ _).mp hupper)
      (padded_trim second)
  · rintro @⟨first, second, lower, upper, hlower, hfirst, hupper, hsecond⟩
    have hsplit : splitAtDash? (first ++ '-' :: second) = some (first, second) :=
      splitAtDash?_eq_some_iff.mpr ⟨rfl, dash_not_mem hlower hfirst⟩
    have hreadLower := (hbound _ _).mpr hlower
    have hreadUpper := (hbound _ _).mpr hupper
    rw [← trim_of_padded hfirst hlower.blankless] at hreadLower
    rw [← trim_of_padded hsecond hupper.blankless] at hreadUpper
    simp only [readBounds?, hsplit, hreadLower, hreadUpper, Option.bind_eq_bind, Option.bind_some]
    rfl

/-- The check passes usable ranges on as they are, and no others. -/
theorem check_eq_ok_iff {r d : PortRange} : r.check = .ok d ↔ d = r ∧ r.Usable := by
  rw [← fault?_eq_none_iff, check]
  cases r.fault? <;> simp [eq_comm]

/-- A range is read exactly from the texts that spell it, if it is usable. -/
theorem read_eq_ok_iff {s : String} {r : PortRange} :
    read s = .ok r ↔ r.SpelledBy s.toList ∧ r.Usable := by
  rw [← readBounds?_eq_some_iff, read]
  rcases readBounds? s.toList with _ | d
  · simp
  · simp only [check_eq_ok_iff, Option.some.injEq]
    constructor
    · rintro ⟨rfl, hr⟩
      exact ⟨rfl, hr⟩
    · rintro ⟨rfl, hr⟩
      exact ⟨rfl, hr⟩

/-- The check finds port 0 first, and then bounds that are out of order. -/
theorem check_eq_error_iff {r : PortRange} {fault : RangeFault} :
    r.check = .error fault ↔ fault = .portZero ∧ r.lower = 0 ∨
      fault = .inverted r ∧ r.lower ≠ 0 ∧ r.upper < r.lower := by
  rw [check, fault?]
  by_cases hzero : r.lower = 0
  · simp [hzero, eq_comm]
  · by_cases hinverted : r.upper < r.lower <;> simp [hzero, hinverted, eq_comm]

/-- A text is refused if it spells no range, or for what is wrong with the range that it spells. -/
theorem read_eq_error_iff {s : String} {fault : RangeFault} :
    read s = .error fault ↔ (fault = .malformed s ∧ ∀ r : PortRange, ¬r.SpelledBy s.toList) ∨
      ∃ r : PortRange, r.SpelledBy s.toList ∧ r.check = .error fault := by
  simp only [← readBounds?_eq_some_iff, read]
  rcases readBounds? s.toList with _ | d <;> simp [eq_comm]

/-- A range starts at port 1 or above exactly if it does not start at port 0. -/
theorem usable_iff {r : PortRange} : r.Usable ↔ 1 ≤ r.lower ∧ r.lower ≤ r.upper := by
  constructor
  · intro hr
    exact ⟨UInt16.pos_iff_ne_zero.mpr hr.lower_ne, hr.lower_le⟩
  · rintro ⟨hpositive, hle⟩
    exact usable_of_one_le hpositive hle

/-- How a text is read as a range. -/
structure ReadAsSpelled (s : String) : Prop where
  /-- A text gives the range that it spells, if that starts at port 1 or above and its bounds are
  in order, and it gives no other. -/
  ok_iff : ∀ r, read s = .ok r ↔ r.SpelledBy s.toList ∧ 1 ≤ r.lower ∧ r.lower ≤ r.upper
  /-- Every other text is refused, and as a value on a command line it is an invalid argument. -/
  refused : (∀ r : PortRange, ¬(r.SpelledBy s.toList ∧ 1 ≤ r.lower ∧ r.lower ≤ r.upper)) →
    ∃ fault, read s = .error fault ∧
      CommandLine.Given.readRange s = .error (.argument (.range fault))
  /-- A text is malformed exactly if it spells no range at all. -/
  malformed_iff : read s = .error (.malformed s) ↔ ∀ r : PortRange, ¬r.SpelledBy s.toList
  /-- Port 0 is found before bounds that are out of order. -/
  portZero_iff : read s = .error .portZero ↔ ∃ r : PortRange, r.SpelledBy s.toList ∧ r.lower = 0
  /-- Bounds that are out of order are told as they are spelled. -/
  inverted_iff : ∀ r, read s = .error (.inverted r) ↔
    r.SpelledBy s.toList ∧ r.lower ≠ 0 ∧ r.upper < r.lower

/-- What holds of a range and the texts that spell it. -/
structure ReadsBack (r : PortRange) : Prop where
  /-- The range reads back from its text. -/
  text : read r.text = .ok r
  /-- It reads back with blanks around either bound as well. -/
  padded : ∀ first second, Padded (decimal r.lower.toNat) first →
    Padded (decimal r.upper.toNat) second → read (String.ofList (first ++ '-' :: second)) = .ok r
  /-- There are as many ports in it as its size says. -/
  count : (Finset.univ.filter fun port : UInt16 => r.contains port = true).card = r.count

/-- Every text is read as the range that it spells. -/
theorem readAsSpelled (s : String) : ReadAsSpelled s := by
  have hok (r : PortRange) :
      read s = .ok r ↔ r.SpelledBy s.toList ∧ 1 ≤ r.lower ∧ r.lower ≤ r.upper := by
    rw [read_eq_ok_iff, usable_iff]
  constructor
  case ok_iff => exact hok
  case refused =>
    intro hnone
    rcases hread : read s with fault | r
    · exact ⟨fault, rfl, by rw [CommandLine.Given.readRange, hread]; rfl⟩
    · exact absurd ((hok r).mp hread) (hnone r)
  case malformed_iff => simp [read_eq_error_iff, check_eq_error_iff]
  case portZero_iff => simp [read_eq_error_iff, check_eq_error_iff]
  case inverted_iff =>
    intro r
    simp [read_eq_error_iff, check_eq_error_iff]

/-- A usable range reads back from the texts that spell it. -/
theorem Usable.readsBack {r : PortRange} (hr : r.Usable) : ReadsBack r := by
  have hpadded (first second : List Char) (hfirst : Padded (decimal r.lower.toNat) first)
      (hsecond : Padded (decimal r.upper.toNat) second) :
      read (String.ofList (first ++ '-' :: second)) = .ok r := by
    rw [read_eq_ok_iff, String.toList_ofList]
    exact ⟨.bounds (.inl (decimalNumeral_decimal _)) hfirst (.inl (decimalNumeral_decimal _))
      hsecond, hr⟩
  exact ⟨hpadded _ _ (.refl _) (.refl _), hpadded, card_ports hr.lower_le⟩

/-- Ranges and their texts belong together: each text is read as the range that it spells, and each
range from which ports can be drawn reads back from its texts. -/
theorem texts_and_ranges_match :
    (∀ s, ReadAsSpelled s) ∧
      ∀ r : PortRange, 1 ≤ r.lower → r.lower ≤ r.upper → ReadsBack r :=
  ⟨readAsSpelled, fun _ hpositive hle => (usable_of_one_le hpositive hle).readsBack⟩

/-- A range is read with a plus sign, a leading zero and blanks of three kinds, and reads back with
blanks that are wider than those of ASCII. -/
theorem texts_and_ranges_match_on_membership_ports :
    let r : PortRange := ⟨41000, 61000⟩
    1 ≤ r.lower ∧ r.lower ≤ r.upper ∧ read " +041000\t-\u00a061000" = .ok r ∧
      read "\u3000\u300041000-61000\u2003" = .ok r ∧
      (Finset.univ.filter fun port : UInt16 => r.contains port = true).card = 20001 := by
  intro r
  have hback : ReadsBack r := texts_and_ranges_match.2 r (by decide) (by decide)
  have hread (s : String) : ReadAsSpelled s := texts_and_ranges_match.1 s
  refine ⟨by decide, by decide, ((hread _).ok_iff r).mpr ⟨?_, by decide, by decide⟩,
    hback.padded "\u3000\u300041000".toList "61000\u2003".toList ?_ ?_,
    hback.count.trans (by decide)⟩
  · refine @SpelledBy.bounds r " +041000\t".toList "\u00a061000".toList "+041000".toList
      "61000".toList ?_ ?_ ?_ ?_
    · exact .inr ⟨"041000".toList, rfl, by decide, List.all_eq_true.mp rfl, rfl⟩
    · exact ⟨[' '], ['\t'], by decide, by decide, rfl⟩
    · exact .inl ⟨by decide, List.all_eq_true.mp rfl, rfl⟩
    · exact ⟨['\u00a0'], [], by decide, by decide, rfl⟩
  · exact ⟨['\u3000', '\u3000'], [], by decide, by decide, by decide +kernel⟩
  · exact ⟨[], ['\u2003'], by decide, by decide, by decide +kernel⟩

end PortRange

end PortWarden
