import PortWarden.Proofs.Drawing
import Mathlib.Algebra.BigOperators.Option
import Mathlib.Algebra.Order.Floor.Div
import Mathlib.Data.FinEnum
import Mathlib.Order.Interval.Finset.Nat

/-!
# The choice of a port is uniform

A word times the size of a range is a number in one of as many stretches as the range has ports, all
of the same length. A word is taken if the product lies within the last full round of its stretch,
so that every port is the choice of the same number of words. What the other words are refused for
is that they cannot be shared out evenly.

Which kind of generator gives the words makes no difference: the first of them that is not refused
decides.
-/

namespace PortWarden

/-- Numbers whose products with `n` lie in a stretch of `q` rounds of `n` follow one another, and
there are `q` of them. -/
theorem multiple_between_iff {n : Nat} (hn : 0 < n) (a q m : Nat) :
    a ≤ m * n ∧ m * n < a + n * q ↔ a ⌈/⌉ n ≤ m ∧ m < a ⌈/⌉ n + q := by
  have hfirst (m : Nat) : a ⌈/⌉ n ≤ m ↔ a ≤ n * m := ceilDiv_le_iff_le_mul hn
  have hlast : a ⌈/⌉ n + q ≤ m ↔ a + n * q ≤ n * m := by
    rcases Nat.lt_or_ge m q with hq | hq
    · have hshort : n * m < n * q := Nat.mul_lt_mul_of_pos_left hq hn
      omega
    · obtain ⟨d, rfl⟩ := Nat.exists_eq_add_of_le hq
      rw [Nat.mul_add, Nat.add_comm a, Nat.add_le_add_iff_left, ← hfirst]
      omega
  rw [hfirst, Nat.mul_comm m]
  omega

namespace PortRange

/-- A product is accepted if it lies within the last full round of the range. -/
theorem le_zone_iff {n x : Nat} (hn : 0 < n) (hle : n ≤ wordCount) :
    x ≤ zone n ↔ x < n * (wordCount / n) := by
  have hmod : wordCount % n = (wordCount - n) % n := Nat.mod_eq_sub_mod hle
  have hdiv : n * (wordCount / n) + wordCount % n = wordCount := Nat.div_add_mod wordCount n
  have hlt : wordCount % n < n := Nat.mod_lt _ hn
  rw [zone, ← hmod]
  omega

/-- The words that come to a choice from a range: to a port, or to none if they are refused. -/
def words (r : PortRange) (choice : Option UInt16) : Finset UInt32 :=
  Finset.univ.filter (r.pick? · = choice)

/-- The words of a choice are those with which it is made. -/
theorem mem_words {r : PortRange} {choice : Option UInt16} {word : UInt32} :
    word ∈ r.words choice ↔ r.pick? word = choice := by
  simp [words]

/-- If the words of a choice can be numbered from 0 on, there are as many as numbers. -/
theorem card_words_of_numbered {r : PortRange} {choice : Option UInt16} {q : Nat}
    (number : Nat → Nat) (hbelow : ∀ i < q, number i < wordCount)
    (hdistinct : ∀ i < q, ∀ j < q, number i = number j → i = j)
    (hwords : ∀ word : UInt32, r.pick? word = choice ↔ ∃ i < q, word.toNat = number i) :
    (r.words choice).card = q := by
  have hnumber (i : Nat) (hi : i < q) : (UInt32.ofNat (number i)).toNat = number i :=
    UInt32.toNat_ofNat_of_lt' (hbelow i hi)
  have himage : r.words choice = (Finset.range q).image fun i => UInt32.ofNat (number i) := by
    ext word
    rw [mem_words, hwords, Finset.mem_image]
    constructor
    · rintro ⟨i, hi, hword⟩
      refine ⟨i, Finset.mem_range.mpr hi, ?_⟩
      rw [← UInt32.toNat_inj, hnumber i hi, hword]
    · rintro ⟨i, hi, rfl⟩
      exact ⟨i, Finset.mem_range.mp hi, hnumber i (Finset.mem_range.mp hi)⟩
  rw [himage, Finset.card_image_of_injOn, Finset.card_range]
  intro i hi j hj hsame
  have hi := Finset.mem_range.mp hi
  have hj := Finset.mem_range.mp hj
  refine hdistinct i hi j hj ?_
  rw [← hnumber i hi, ← hnumber j hj]
  exact congrArg UInt32.toNat hsame

section

variable {r : PortRange} (horder : r.lower ≤ r.upper)
include horder

/-- The size of a range is a number from 1 to 65536. -/
theorem count_bounds :
    0 < r.count ∧ r.lower.toNat + r.count = r.upper.toNat + 1 ∧ r.count ≤ 65536 := by
  have hle : r.lower.toNat ≤ r.upper.toNat := UInt16.le_iff_toNat_le.mp horder
  have hupper : r.upper.toNat < 65536 := r.upper.toNat_lt
  simp only [count]
  omega

/-- The ports of a range lie in it at the places from 0 up to its size. -/
theorem contains_iff_place {port : UInt16} :
    r.contains port = true ↔
      r.lower.toNat ≤ port.toNat ∧ port.toNat - r.lower.toNat < r.count := by
  obtain ⟨-, hsize, -⟩ := count_bounds horder
  simp only [contains, Bool.and_eq_true, decide_eq_true_eq, UInt16.le_iff_toNat_le]
  omega

/-- There are as many ports in a range as its size says. -/
theorem card_ports :
    (Finset.univ.filter fun port : UInt16 => r.contains port = true).card = r.count := by
  obtain ⟨-, hsize, -⟩ := count_bounds horder
  have hupper : r.upper.toNat < 65536 := r.upper.toNat_lt
  have himage : (Finset.univ.filter fun port : UInt16 => r.contains port = true).image
      UInt16.toNat = Finset.Icc r.lower.toNat r.upper.toNat := by
    ext n
    simp only [Finset.mem_image, Finset.mem_filter, Finset.mem_univ, true_and, Finset.mem_Icc,
      contains_iff_place horder]
    constructor
    · rintro ⟨port, hport, rfl⟩
      omega
    · intro hn
      have hlt : n < 65536 := by omega
      have hnumber : (UInt16.ofNat n).toNat = n := UInt16.toNat_ofNat_of_lt' hlt
      exact ⟨UInt16.ofNat n, by omega, hnumber⟩
  rw [← Finset.card_image_of_injective _ fun _ _ hsame => UInt16.toNat_inj.mp hsame, himage,
    Nat.card_Icc]
  omega

/-- Unless the range holds all numbers, a word comes to a port if its product with the size of the
range lies in the full rounds of the stretch of the port. -/
theorem pick?_eq_some_iff (hall : r.count ≠ 65536) {port : UInt16}
    (hport : r.contains port = true) (word : UInt32) :
    r.pick? word = some port ↔
      (port.toNat - r.lower.toNat) * wordCount ≤ word.toNat * r.count ∧
        word.toNat * r.count <
          (port.toNat - r.lower.toNat) * wordCount + r.count * (wordCount / r.count) := by
  obtain ⟨hpos, hsize, hmost⟩ := count_bounds horder
  obtain ⟨hlower, hplace⟩ := (contains_iff_place horder).mp hport
  have hupper : r.upper.toNat < 65536 := r.upper.toNat_lt
  have hrounds : r.count * (wordCount / r.count) ≤ wordCount := Nat.mul_div_le _ _
  have hchosen : r.lower + UInt16.ofNat (word.toNat * r.count / wordCount) = port ↔
      word.toNat * r.count / wordCount = port.toNat - r.lower.toNat := by
    have hdrawn : word.toNat * r.count / wordCount < r.count :=
      Nat.div_lt_of_lt_mul (Nat.mul_lt_mul_of_pos_right word.toNat_lt hpos)
    rw [← UInt16.toNat_inj, UInt16.toNat_add, UInt16.toNat_ofNat']
    generalize word.toNat * r.count / wordCount = drawn at hdrawn ⊢
    omega
  rw [pick?, if_neg hall]
  simp only [le_zone_iff hpos (Nat.le_trans hmost (by decide))]
  generalize word.toNat * r.count = product at hchosen ⊢
  generalize r.count * (wordCount / r.count) = rounds at hrounds ⊢
  split
  · rw [Option.some.injEq, hchosen]
    simp only [wordCount] at *
    omega
  · simp only [wordCount, reduceCtorEq, false_iff] at *
    omega

/-- Each port of a range is the choice of the same number of words. -/
theorem card_words_some {port : UInt16} (hport : r.contains port = true) :
    (r.words (some port)).card = wordCount / r.count := by
  obtain ⟨hpos, -, -⟩ := count_bounds horder
  obtain ⟨-, hplace⟩ := (contains_iff_place horder).mp hport
  by_cases hall : r.count = 65536
  · -- the words of which the lower half is the port
    have hlt : port.toNat < 65536 := port.toNat_lt
    have hshare : wordCount / r.count = 65536 := by rw [hall]; rfl
    rw [hshare]
    refine card_words_of_numbered (fun i => 65536 * i + port.toNat) ?_ ?_ fun word => ?_
    · simp only [wordCount]
      omega
    · omega
    · have hword : word.toNat < 4294967296 := word.toNat_lt
      rw [pick?, if_pos hall, Option.some.injEq, ← UInt16.toNat_inj, UInt32.toNat_toUInt16]
      constructor
      · intro hhalf
        exact ⟨word.toNat / 65536, by omega, by omega⟩
      · rintro ⟨i, hi, hnumber⟩
        omega
  · -- the words from the first whose product reaches the stretch of the port
    let place := port.toNat - r.lower.toNat
    let first := place * wordCount ⌈/⌉ r.count
    have hrounds : r.count * (wordCount / r.count) ≤ wordCount := Nat.mul_div_le _ _
    have hstretch (m : Nat) : place * wordCount ≤ m * r.count ∧
        m * r.count < place * wordCount + r.count * (wordCount / r.count) ↔
          first ≤ m ∧ m < first + wordCount / r.count :=
      multiple_between_iff hpos _ _ m
    refine card_words_of_numbered (first + ·) ?_ ?_ fun word => ?_
    · intro i hi
      obtain ⟨-, hend⟩ := (hstretch (first + i)).mpr ⟨by omega, by omega⟩
      have hstretches : (place + 1) * wordCount ≤ r.count * wordCount :=
        Nat.mul_le_mul_right _ hplace
      have hbelow : (first + i) * r.count < wordCount * r.count := by
        rw [Nat.succ_mul] at hstretches
        rw [Nat.mul_comm wordCount]
        omega
      exact Nat.lt_of_mul_lt_mul_right hbelow
    · omega
    · rw [pick?_eq_some_iff horder hall hport, hstretch]
      constructor
      · rintro ⟨hlow, hhigh⟩
        exact ⟨word.toNat - first, by omega, by omega⟩
      · rintro ⟨i, hi, hnumber⟩
        omega

/-- The words that are refused are those left when the ports have their equal shares. -/
theorem card_words_none : (r.words none).card = wordCount % r.count := by
  let ports := Finset.univ.filter fun port : UInt16 => r.contains port = true
  have hall : (Finset.univ : Finset UInt32).card = wordCount := by
    rw [Finset.card_univ, ← FinEnum.card_eq_fintypeCard]
    rfl
  have hsplit : (Finset.univ : Finset UInt32).card =
      ∑ choice ∈ Finset.insertNone ports, (r.words choice).card := by
    refine Finset.card_eq_sum_card_fiberwise fun word _ => ?_
    rcases hword : r.pick? word with _ | port
    · simp
    · simpa [ports] using r.contains_of_pick? horder hword
  have hshares : ∑ port ∈ ports, (r.words (some port)).card = r.count * (wordCount / r.count) := by
    have hshare (port : UInt16) (hport : port ∈ ports) :
        (r.words (some port)).card = wordCount / r.count :=
      card_words_some horder (Finset.mem_filter.mp hport).2
    rw [Finset.sum_congr rfl hshare, Finset.sum_const, card_ports horder, smul_eq_mul]
  have hdiv : r.count * (wordCount / r.count) + wordCount % r.count = wordCount :=
    Nat.div_add_mod _ _
  rw [hall, Finset.sum_insertNone, hshares] at hsplit
  omega

end

end PortRange

namespace Generator

/-- A generator and the source of the system once some words were taken. -/
def skip : Nat → Generator → Entropy → Generator × Entropy
  | 0, g, e => (g, e)
  | n + 1, g, e => skip n (g.next e).2.1 (g.next e).2.2

/-- The words that a generator gives, in order. -/
def word (g : Generator) (e : Entropy) (n : Nat) : UInt32 :=
  ((g.skip n e).1.next (g.skip n e).2).1

/-- The words after the first are those of the generator that it leaves. -/
theorem word_succ (g : Generator) (e : Entropy) (n : Nat) :
    g.word e (n + 1) = (g.next e).2.1.word (g.next e).2.2 n := rfl

/-- A strong generator takes the words of the system as they come. -/
theorem skip_strong (n : Nat) (e : Entropy) :
    skip n strong e = (strong, { e with taken := e.taken + n }) := by
  induction n generalizing e with
  | zero => rfl
  | succ n ih =>
    change skip n strong { e with taken := e.taken + 1 } = _
    rw [ih, Nat.add_assoc, Nat.add_comm 1]

/-- A fast generator goes from state to state, and leaves the words of the system alone. -/
theorem skip_fast (n : Nat) (state : Xoshiro) (e : Entropy) :
    skip n (fast state) e = (fast (Xoshiro.step^[n] state), e) := by
  induction n generalizing state with
  | zero => rfl
  | succ n ih => exact ih state.step

/-- The words of a strong generator are those of the system. -/
theorem word_strong (e : Entropy) (n : Nat) : strong.word e n = e.word (e.taken + n) := by
  simp only [word, skip_strong]
  rfl

/-- The words of a fast generator are the outputs of its states. -/
theorem word_fast (state : Xoshiro) (e : Entropy) (n : Nat) :
    (fast state).word e n = (Xoshiro.step^[n] state).output := by
  simp only [word, skip_fast]
  rfl

/-- The first word that is not refused decides which port is picked. -/
theorem pick_eq_some_iff {r : PortRange} {fuel : Nat} {g g' : Generator} {e e' : Entropy}
    {port : UInt16} :
    pick r fuel g e = (some port, g', e') ↔
      ∃ n < fuel, (∀ i < n, r.pick? (g.word e i) = none) ∧ r.pick? (g.word e n) = some port ∧
        g.skip (n + 1) e = (g', e') := by
  induction fuel generalizing g e with
  | zero => simp [pick]
  | succ fuel ih =>
    simp only [Nat.exists_lt_succ_left, Nat.forall_lt_succ_left, word_succ, pick]
    have hfirst : g.word e 0 = (g.next e).1 := rfl
    rw [hfirst]
    cases hpick : r.pick? (g.next e).1 with
    | none => simpa [skip] using ih
    | some port' => simp [skip, Prod.ext_iff]

/-- No port is picked exactly as long as all words are refused. -/
theorem pick_fst_eq_none_iff {r : PortRange} {fuel : Nat} {g : Generator} {e : Entropy} :
    (pick r fuel g e).1 = none ↔ ∀ i < fuel, r.pick? (g.word e i) = none := by
  induction fuel generalizing g e with
  | zero => simp [pick]
  | succ fuel ih =>
    simp only [Nat.forall_lt_succ_left, word_succ, pick]
    have hfirst : g.word e 0 = (g.next e).1 := rfl
    rw [hfirst]
    cases hpick : r.pick? (g.next e).1 with
    | none => simpa using ih
    | some port => simp

end Generator

/-- The choice of a port from a range favours none. -/
structure PortRange.PickedUniformly (r : PortRange) : Prop where
  /-- Each port of the range is the choice of the same number of words: of as many as each can have
  if the words are shared out evenly. -/
  even : ∀ port, r.contains port = true → (r.words (some port)).card = wordCount / r.count
  /-- No other port is the choice of any word. -/
  inside : ∀ port, r.contains port = false → r.words (some port) = ∅
  /-- The words that are left over are refused. -/
  refused : (r.words none).card = wordCount % r.count
  /-- Of the words that a generator gives, whatever they are, the first that is not refused decides
  on the port. No word after it is taken. -/
  decided : ∀ {fuel g e port g' e'}, Generator.pick r fuel g e = (some port, g', e') ↔
    ∃ n < fuel, (∀ i < n, g.word e i ∈ r.words none) ∧ g.word e n ∈ r.words (some port) ∧
      g.skip (n + 1) e = (g', e')
  /-- Words are taken until there is one that is not refused. -/
  redrawn : ∀ {fuel g e}, (Generator.pick r fuel g e).1 = none ↔
    ∀ i < fuel, g.word e i ∈ r.words none
  /-- What is picked lies in the range. -/
  drawn : ∀ {fuel g e port}, (Generator.pick r fuel g e).1 = some port → r.contains port = true
  /-- The words of a strong generator are those of the system. -/
  strong : ∀ e n, Generator.strong.word e n = e.word (e.taken + n)
  /-- The words of a fast generator are the outputs of its states. -/
  fast : ∀ state e n, (Generator.fast state).word e n = (Xoshiro.step^[n] state).output

namespace PortRange

/-- If the bounds of a range are in order, the choice of a port from it is uniform. -/
theorem picked_uniformly {r : PortRange} (horder : r.lower ≤ r.upper) : r.PickedUniformly where
  even _ := card_words_some horder
  inside port hport := by
    refine Finset.eq_empty_of_forall_notMem fun word hword => ?_
    rw [r.contains_of_pick? horder (mem_words.mp hword)] at hport
    cases hport
  refused := card_words_none horder
  decided := by
    simp only [mem_words]
    exact Generator.pick_eq_some_iff
  redrawn := by
    simp only [mem_words]
    exact Generator.pick_fst_eq_none_iff
  drawn hpick := Generator.pick_contains horder _ _ _ _ hpick
  strong := Generator.word_strong
  fast := Generator.word_fast

/-- Of three ports each is the choice of a third of the words but one, `0x55555555`, after which
another word is taken. -/
theorem picked_uniformly_from_three :
    let r : PortRange := ⟨30000, 30002⟩
    let e : Entropy := .cycle [0x55555555, 0x80000000]
    r.lower ≤ r.upper ∧ (r.words (some 30001)).card = 1431655765 ∧ (r.words none).card = 1 ∧
      ∃ g' e', Generator.pick r 2 .strong e = (some 30001, g', e') ∧ e'.taken = 2 := by
  intro r e
  have horder : r.lower ≤ r.upper := by decide
  have huniform := picked_uniformly horder
  have hshare : wordCount / r.count = 1431655765 := by decide
  have hrest : wordCount % r.count = 1 := by decide
  refine ⟨horder, (huniform.even 30001 (by decide)).trans hshare, huniform.refused.trans hrest,
    .strong, { e with taken := 2 }, ?_, rfl⟩
  refine huniform.decided.mpr ⟨1, by decide, ?_, mem_words.mpr (by decide), rfl⟩
  intro i hi
  obtain rfl : i = 0 := by omega
  exact mem_words.mpr (by decide)

end PortRange

end PortWarden
