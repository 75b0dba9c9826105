import Mathlib.Tactic.IntervalCases
import PortWarden.Config.Document

/-!
# Numerals

The digits of a number read back as the number, in every base up to sixteen. A number is written
without leading zeros, so that its text is never taken for one in another base.
-/

namespace PortWarden

namespace Text

/-- A digit is read as its value. -/
theorem digit?_digitChar {base d : Nat} (hbase : base ≤ 16) (hd : d < base) :
    digit? base d.digitChar = some d := by
  have hsixteen : d < 16 := by omega
  have hvalue : digit? 16 d.digitChar = some d := by
    interval_cases d <;> rfl
  simp only [digit?, Option.filter_eq_some_iff, decide_eq_true_eq] at hvalue ⊢
  exact ⟨hvalue.1, hd⟩

/-- The characters of a numeral are digits of its base. -/
theorem exists_digit_of_mem_toDigits {base n : Nat} {c : Char} (hbase : 1 < base)
    (hc : c ∈ Nat.toDigits base n) : ∃ d < base, c = d.digitChar := by
  induction n using Nat.strongRecOn with
  | ind n ih =>
    rw [Nat.toDigits_eq_if hbase] at hc
    split at hc
    · exact ⟨n, ‹_›, List.mem_singleton.mp hc⟩
    · rcases List.mem_append.mp hc with hc | hc
      · exact ih (n / base) (Nat.div_lt_self (by omega) hbase) hc
      · exact ⟨n % base, Nat.mod_lt n (by omega), List.mem_singleton.mp hc⟩

/-- A numeral starts with a digit of its base. -/
theorem exists_toDigits_eq_cons {base : Nat} (hbase : 1 < base) (n : Nat) :
    ∃ d < base, ∃ cs, Nat.toDigits base n = d.digitChar :: cs := by
  rcases hdigits : Nat.toDigits base n with _ | ⟨c, cs⟩
  · exact absurd hdigits Nat.toDigits_ne_nil
  · have hmem : c ∈ Nat.toDigits base n := by
      rw [hdigits]
      exact List.mem_cons_self
    obtain ⟨d, hd, rfl⟩ := exists_digit_of_mem_toDigits hbase hmem
    exact ⟨d, hd, cs, rfl⟩

/-- A numeral in front of further digits is read as the value of the digits before them. -/
theorem readDigits_toDigits_append {base bound n : Nat} (hbase : 1 < base) (hsixteen : base ≤ 16)
    (hn : n ≤ bound) (rest : List Char) :
    readDigits base bound 0 (Nat.toDigits base n ++ rest) = readDigits base bound n rest := by
  induction n using Nat.strongRecOn generalizing rest with
  | ind n ih =>
    rw [Nat.toDigits_eq_if hbase]
    split
    · rename_i hlt
      simp only [List.singleton_append, readDigits, digit?_digitChar hsixteen hlt]
      simp [hn]
    · have hdigit : n % base < base := Nat.mod_lt n (by omega)
      have hfront : n / base ≤ bound := (Nat.div_le_self n base).trans hn
      have hvalue : n / base * base + n % base = n := Nat.div_add_mod' n base
      rw [List.append_assoc, ih (n / base) (Nat.div_lt_self (by omega) hbase) hfront]
      simp only [List.singleton_append, readDigits, digit?_digitChar hsixteen hdigit, hvalue]
      rw [if_pos hn]

/-- A numeral reads back as its number, up to the bound asked for. -/
theorem readUnsigned_toDigits {base bound n : Nat} (hbase : 1 < base) (hsixteen : base ≤ 16)
    (hn : n ≤ bound) : readUnsigned base bound (Nat.toDigits base n) = .ok n := by
  have hread : readUnsigned base bound (Nat.toDigits base n) =
      readDigits base bound 0 (Nat.toDigits base n) := by
    obtain ⟨d, -, cs, hdigits⟩ := exists_toDigits_eq_cons hbase n
    rw [hdigits]
    rfl
  rw [hread]
  simpa [readDigits] using readDigits_toDigits_append hbase hsixteen hn []

/-- Only the numeral of zero starts with a zero. -/
theorem head?_toDigits_ne_zero {base n : Nat} (hbase : 1 < base) (hn : 0 < n) :
    (Nat.toDigits base n).head? ≠ some '0' := by
  induction n using Nat.strongRecOn with
  | ind n ih =>
    rw [Nat.toDigits_eq_if hbase]
    split
    · simp only [List.head?_cons, ne_eq, Option.some.injEq, Nat.digitChar_eq_zero]
      omega
    · have hfront := ih (n / base) (Nat.div_lt_self (by omega) hbase)
        (Nat.div_pos (by omega) (by omega))
      obtain ⟨d, -, cs, hdigits⟩ := exists_toDigits_eq_cons hbase (n / base)
      rwa [hdigits] at hfront ⊢

/-- A decimal numeral that starts with a zero is that zero. -/
theorem decimal_eq_zero_of_head? {n : Nat} (hhead : (decimal n).head? = some '0') :
    decimal n = ['0'] := by
  have hn : ¬0 < n := fun hpos => head?_toDigits_ne_zero (by decide) hpos hhead
  obtain rfl : n = 0 := by omega
  exact Nat.toDigits_zero 10

end Text

namespace Config

open PortWarden.Text

/-- A decimal numeral does not look like one in another base. -/
theorem afterBase?_decimal (sign : Char) (n : Nat) : afterBase? sign (decimal n) = none := by
  by_cases hhead : (decimal n).head? = some '0'
  · rw [decimal_eq_zero_of_head? hhead]
    rfl
  · unfold afterBase?
    split
    · rename_i c cs hdigits
      exact absurd (by rw [hdigits]; rfl) hhead
    · rfl

/-- A number of up to 64 bits reads back from its decimal numeral. -/
theorem readNumber?_decimal {n : Nat} (hn : n ≤ maxUInt64) : readNumber? (decimal n) = some n := by
  have hplus : (decimal n).head? ≠ some '+' := by
    intro hhead
    have hdigit := Nat.isDigit_of_mem_toDigits (by decide) (by decide) (List.mem_of_mem_head? hhead)
    cases hdigit
  have hzeros : ¬(1 < (decimal n).length ∧ (decimal n).head? = some '0' ∧
      (decimal n).all Char.isDigit) := by
    rintro ⟨hlong, hhead, -⟩
    rw [decimal_eq_zero_of_head? hhead] at hlong
    exact absurd hlong (by decide)
  have hread : readUnsigned 10 maxUInt64 (decimal n) = .ok n :=
    readUnsigned_toDigits (by decide) (by decide) hn
  simp only [readNumber?, if_neg hplus, afterBase?_decimal, if_neg hzeros, hread]
  rfl

end Config

end PortWarden
