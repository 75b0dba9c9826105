import PortWarden.Config.Document
import PortWarden.Proofs.Lines

/-!
# Block mappings

Documents that are a mapping of words and of mappings of words, written in block style. Line by line
the scanner gives the tokens of their entries, from these the parser builds the tree of the mapping,
and since no node has an anchor, nothing is changed by numbering.
-/

namespace PortWarden.Yaml

/-- The style in which a word is written: in quotes if it ends in a colon. -/
def wordStyle (text : List Char) : ScalarStyle :=
  if text.getLast? = some ':' then .singleQuoted else .plain

/-- The line of a key and a word. -/
def wordLine (key text : List Char) : List Char :=
  key ++ ':' :: ' ' :: Config.scalarChars text ++ ['\n']

/-- A value in a block mapping. -/
inductive BlockValue where
  /-- A word on the line of its key. -/
  | word (text : List Char)
  /-- A mapping of words on the lines below its key, two columns to the right. -/
  | words (first : List Char × List Char) (more : List (List Char × List Char))

namespace BlockValue

/-- The lines of a key and its value. -/
def chars (key : List Char) : BlockValue → List Char
  | word text => wordLine key text
  | words first more =>
    key ++ ':' :: '\n' ::
      (first :: more).flatMap fun entry => ' ' :: ' ' :: wordLine entry.1 entry.2

/-- The tokens of a key and the tokens of its value. -/
def entryTokens (key : List Char) (value : List Token) : List Token :=
  .key :: .scalar .plain key :: .value :: value

/-- The tokens of a key and a word. -/
def wordTokens (key text : List Char) : List Token :=
  entryTokens key [.scalar (wordStyle text) text]

/-- The tokens of a value. -/
def tokens : BlockValue → List Token
  | word text => [.scalar (wordStyle text) text]
  | words first more =>
    .blockMappingStart :: (first :: more).flatMap (fun entry => wordTokens entry.1 entry.2) ++
      [.blockEnd]

/-- The node of a word. -/
def wordNode {ρ : Type} (style : ScalarStyle) (text : List Char) : Node ρ := .scalar style none text

/-- The node of a value. -/
def node {ρ : Type} : BlockValue → Node ρ
  | word text => wordNode (wordStyle text) text
  | words first more =>
    .mapping ((first :: more).map fun entry =>
      (wordNode .plain entry.1, wordNode (wordStyle entry.2) entry.2))

/-- How many steps the scanner takes over a key and its value. -/
def steps : BlockValue → Nat
  | word _ => 3
  | words _ more => 2 + 3 * (more.length + 1)

end BlockValue

/-- A text that can be the key of a block mapping. -/
structure IsKey (key : List Char) : Prop extends Plain key where
  /-- Its colon is not too far away. -/
  length : key.length ≤ 1024

instance (key : List Char) : Decidable (IsKey key) :=
  decidable_of_iff (Plain key ∧ key.length ≤ 1024)
    ⟨fun ⟨hplain, hlength⟩ => ⟨hplain, hlength⟩, fun h => ⟨h.toPlain, h.length⟩⟩

/-- The values that can stand in a block mapping. -/
inductive BlockValue.Ok : BlockValue → Prop where
  /-- A word. -/
  | word {text : List Char} (htext : Word text) : Ok (.word text)
  /-- A mapping of words. -/
  | words {first : List Char × List Char} {more : List (List Char × List Char)}
      (hentries : ∀ entry ∈ first :: more, IsKey entry.1 ∧ Word entry.2) : Ok (.words first more)

namespace Scanner

open BlockValue

/-- Behind a key its column is the innermost. -/
theorem opened_fst {col : Nat} {indents : List Nat}
    (hindents : indents.head?.all (· ≤ col) = true) :
    ∃ outer, (opened col indents).1 = col :: outer := by
  cases indents with
  | nil => exact ⟨[], rfl⟩
  | cons i is =>
    by_cases hi : i < col
    · exact ⟨i :: is, by simp [opened, hi]⟩
    · have hle : i ≤ col := by simpa using hindents
      obtain rfl : i = col := by omega
      exact ⟨is, by simp [opened]⟩

/-- In the column of a mapping no further one starts. -/
theorem opened_same (col : Nat) (outer : List Nat) :
    opened col (col :: outer) = (col :: outer, []) := by
  simp [opened]

section

variable {rest : List Char} (hrest : rest.head?.all startsToken = true) {col : Nat}
  {indents : List Nat} (hindents : indents.head?.all (· ≤ col) = true)

include hrest hindents

/-- The line of a key and a word is scanned as its entry, up to the next token, which does not stand
right of the key. -/
theorem run?_wordLine {key text : List Char} (hkey : IsKey key) (htext : Word text) {n : Nat}
    (hn : n ≤ col) (i l : Nat) (before : List Token) :
    ∃ i', ∀ fuel, run? (fuel + 3) {
          cursor := ⟨wordLine key text ++ (List.replicate n ' ' ++ rest), i, l, col⟩
          indents
          tokens := before } =
        run? fuel {
          cursor := ⟨rest, i', l + 1, n⟩
          indents := (opened col indents).1
          tokens := (wordTokens key text).reverse ++ ((opened col indents).2 ++ before) } := by
  obtain ⟨outer, houter⟩ := opened_fst hindents
  by_cases hlast : text.getLast? = some ':'
  · refine ⟨i + key.length + 1 + 1 + text.length + 2 + 1 + n, fun fuel => ?_⟩
    have hline : wordLine key text ++ (List.replicate n ' ' ++ rest) =
        key ++ ':' :: ' ' :: '\'' :: (text ++ '\'' :: '\n' :: (List.replicate n ' ' ++ rest)) := by
      simp [wordLine, Config.scalarChars, hlast]
    rw [hline, run?_key rfl hindents (fuel + 1) i l before hkey.toPlain hkey.length, houter,
      run?_quoted hrest (by omega) fuel _ l outer _ htext.chars]
    simp [wordTokens, entryTokens, wordStyle, hlast]
  · refine ⟨i + key.length + 1 + 1 + text.length + 1 + n, fun fuel => ?_⟩
    have hline : wordLine key text ++ (List.replicate n ' ' ++ rest) =
        key ++ ':' :: ' ' :: (text ++ '\n' :: (List.replicate n ' ' ++ rest)) := by
      simp [wordLine, Config.scalarChars, hlast]
    rw [hline, run?_key rfl hindents (fuel + 1) i l before hkey.toPlain hkey.length, houter,
      run?_plain hrest (by omega) fuel _ l outer _ ⟨htext, hlast⟩ hn]
    simp [wordTokens, entryTokens, wordStyle, hlast]

end

/-- The lines of a mapping of words are scanned as its entries, up to something that is no further
right than the mapping around it. -/
theorem run?_words {rest : List Char} (hrest : rest.head?.all startsToken = true)
    (more : List (List Char × List Char)) {first : List Char × List Char}
    (hentries : ∀ entry ∈ first :: more, IsKey entry.1 ∧ Word entry.2) {indents : List Nat}
    (hindents : indents.head?.all (· ≤ 2) = true) (i l : Nat) (before : List Token) :
    ∃ i' l', ∀ fuel, run? (fuel + 3 * (more.length + 1)) {
          cursor := ⟨wordLine first.1 first.2 ++
            (more.flatMap (fun entry => ' ' :: ' ' :: wordLine entry.1 entry.2) ++ rest), i, l, 2⟩
          indents
          tokens := before } =
        run? fuel {
          cursor := ⟨rest, i', l', 0⟩
          indents := (opened 2 indents).1
          tokens := ((first :: more).flatMap fun entry => wordTokens entry.1 entry.2).reverse ++
            ((opened 2 indents).2 ++ before) } := by
  obtain ⟨hkey, hword⟩ := hentries first List.mem_cons_self
  induction more generalizing first indents i l before with
  | nil =>
    obtain ⟨i', hline⟩ := run?_wordLine (n := 0) hrest hindents hkey hword (by omega) i l before
    refine ⟨i', l + 1, fun fuel => ?_⟩
    simpa using hline fuel
  | cons second more ih =>
    obtain ⟨hsecond, hsecondWord⟩ := hentries second (by simp)
    obtain ⟨outer, houter⟩ := opened_fst hindents
    have hnext : (wordLine second.1 second.2 ++
        (more.flatMap (fun entry => ' ' :: ' ' :: wordLine entry.1 entry.2) ++ rest)).head?.all
          startsToken = true := by
      simp only [wordLine, List.append_assoc]
      exact hsecond.toWord.startsToken _
    -- the spaces before the second key belong to what the first line is scanned up to
    obtain ⟨i', hline⟩ := run?_wordLine (n := 2) hnext hindents hkey hword (by omega) i l before
    have hmore : ∀ entry ∈ second :: more, IsKey entry.1 ∧ Word entry.2 :=
      fun entry hentry => hentries entry (List.mem_cons_of_mem _ hentry)
    obtain ⟨i'', l'', hlines⟩ := ih hmore (show (2 :: outer).head?.all (· ≤ 2) = true from rfl) i'
      (l + 1) ((wordTokens first.1 first.2).reverse ++ ((opened 2 indents).2 ++ before)) hsecond
      hsecondWord
    refine ⟨i'', l'', fun fuel => ?_⟩
    have hfuel : fuel + 3 * ((second :: more).length + 1) = fuel + 3 * (more.length + 1) + 3 := by
      simp only [List.length_cons]
      omega
    have hstart := hline (fuel + 3 * (more.length + 1))
    rw [houter, hlines fuel, opened_same] at hstart
    rw [hfuel, houter]
    simpa using hstart

/-- A key and its value are scanned as their entry, up to the next key. -/
theorem run?_entry {rest : List Char} (hrest : rest.head?.all startsToken = true)
    {key : List Char} (hkey : IsKey key) {value : BlockValue} (hvalue : value.Ok)
    {indents : List Nat} (hindents : indents.head?.all (· ≤ 0) = true) (i l : Nat)
    (before : List Token) :
    ∃ i' l', ∀ fuel, run? (fuel + value.steps) {
          cursor := ⟨value.chars key ++ rest, i, l, 0⟩
          indents
          tokens := before } =
        run? fuel {
          cursor := ⟨rest, i', l', 0⟩
          indents := (opened 0 indents).1
          tokens := (entryTokens key value.tokens).reverse ++
            ((opened 0 indents).2 ++ before) } := by
  cases hvalue with
  | word htext =>
    obtain ⟨i', hline⟩ := run?_wordLine (n := 0) hrest hindents hkey htext (by omega) i l before
    exact ⟨i', l + 1, hline⟩
  | @words first more hentries =>
    obtain ⟨outer, houter⟩ := opened_fst hindents
    obtain ⟨hfirst, -⟩ := hentries first List.mem_cons_self
    let lines := wordLine first.1 first.2 ++
      (more.flatMap (fun entry => ' ' :: ' ' :: wordLine entry.1 entry.2) ++ rest)
    have hlines : lines.head?.all startsToken = true := by
      simp only [lines, wordLine, List.append_assoc]
      exact hfirst.toWord.startsToken _
    have hchars : (words first more).chars key ++ rest =
        key ++ ':' :: '\n' :: (List.replicate 2 ' ' ++ lines) := by
      simp [BlockValue.chars, lines, List.replicate_succ]
    obtain ⟨i', l', hwords⟩ := run?_words hrest more hentries
      (show (0 :: outer).head?.all (· ≤ 2) = true from rfl) (i + key.length + 1 + 1 + 2) (l + 1)
      (.value :: .scalar .plain key :: .key :: ((opened 0 indents).2 ++ before))
    refine ⟨i', l', fun fuel => ?_⟩
    rw [hchars, steps, Nat.add_comm 2, ← Nat.add_assoc,
      run?_key rfl hindents _ i l before hkey.toPlain hkey.length, houter,
      run?_lineFeed hlines rfl rfl, hwords, run?_closing hrest]
    -- the key of the next line, or the end, closes the mapping of the words and no other
    have hclosing : closing 0 (opened 2 (0 :: outer)).1 = (0 :: outer, [.blockEnd]) := by
      simp [opened, closing]
    rw [hclosing]
    simp [entryTokens, BlockValue.tokens, opened]

/-- The scanner takes no more steps over a key and its value than there are characters. -/
theorem steps_le (key : List Char) (value : BlockValue) :
    value.steps ≤ (value.chars key).length := by
  have hline (key text : List Char) : 3 ≤ (wordLine key text).length := by
    simp only [wordLine, List.length_append, List.length_cons, List.length_nil]
    omega
  cases value with
  | word text => exact hline key text
  | words first more =>
    have hmore : 3 * more.length ≤
        (more.flatMap fun entry => ' ' :: ' ' :: wordLine entry.1 entry.2).length := by
      induction more with
      | nil => exact Nat.zero_le _
      | cons second more ih =>
        have hsecond := hline second.1 second.2
        simp only [List.flatMap_cons, List.length_append, List.length_cons] at ih ⊢
        omega
    have hfirst := hline first.1 first.2
    simp only [steps, BlockValue.chars, List.flatMap_cons, List.length_append, List.length_cons]
    omega

/-- The lines of entries start with a key. -/
theorem startsToken_entries {entries : List (List Char × BlockValue)}
    (hentries : ∀ entry ∈ entries, IsKey entry.1 ∧ entry.2.Ok) :
    (entries.flatMap fun entry => entry.2.chars entry.1).head?.all startsToken = true := by
  cases entries with
  | nil => rfl
  | cons entry entries =>
    obtain ⟨key, value⟩ := entry
    obtain ⟨hkey, -⟩ := hentries (key, value) List.mem_cons_self
    cases value with
    | word text =>
      simp only [List.flatMap_cons, BlockValue.chars, wordLine, List.append_assoc]
      exact hkey.toWord.startsToken _
    | words first more =>
      simp only [List.flatMap_cons, BlockValue.chars, List.append_assoc]
      exact hkey.toWord.startsToken _

/-- Below its first entry, a block mapping is scanned as the entries that follow and its end. -/
theorem run?_entries (entries : List (List Char × BlockValue))
    (hentries : ∀ entry ∈ entries, IsKey entry.1 ∧ entry.2.Ok) (i l : Nat) (before : List Token)
    {fuel : Nat} (hfuel : (entries.flatMap fun entry => entry.2.chars entry.1).length < fuel) :
    run? fuel {
        cursor := ⟨entries.flatMap fun entry => entry.2.chars entry.1, i, l, 0⟩
        indents := [0]
        tokens := before } =
      some (before.reverse ++
        (entries.flatMap fun entry => entryTokens entry.1 entry.2.tokens) ++ [.blockEnd]) := by
  induction entries generalizing i l before fuel with
  | nil =>
    obtain ⟨fuel, rfl⟩ : ∃ k, fuel = k + 1 := ⟨fuel - 1, by omega⟩
    simpa using run?_end fuel i l (show [0].head?.all (· ≤ 0) = true from rfl) before
  | cons entry entries ih =>
    obtain ⟨key, value⟩ := entry
    obtain ⟨hkey, hvalue⟩ := hentries (key, value) List.mem_cons_self
    have hmore : ∀ entry ∈ entries, IsKey entry.1 ∧ entry.2.Ok :=
      fun entry hentry => hentries entry (List.mem_cons_of_mem _ hentry)
    obtain ⟨i', l', hentry⟩ := run?_entry (startsToken_entries hmore) hkey hvalue
      (show [0].head?.all (· ≤ 0) = true from rfl) i l before
    have hsteps := steps_le key value
    simp only [List.flatMap_cons, List.length_append] at hfuel ⊢
    obtain ⟨fuel, rfl⟩ : ∃ k, fuel = k + value.steps := ⟨fuel - value.steps, by omega⟩
    rw [hentry, opened_same, ih hmore i' l' _ (by omega)]
    simp

end Scanner

/-- A document may hold the line of a key and a word. -/
theorem isReadable_of_mem_wordLine {key text : List Char} (hkey : Word key) (htext : Word text)
    {c : Char} (hc : c ∈ wordLine key text) : isReadable c = true := by
  have hscalar (hc : c ∈ Config.scalarChars text) : isReadable c = true := by
    unfold Config.scalarChars at hc
    split at hc
    · simp only [List.cons_append, List.mem_cons, List.mem_append, List.not_mem_nil, or_false] at hc
      rcases hc with rfl | hc | rfl
      · rfl
      · exact isReadable_of_isWordChar (htext.chars c hc)
      · rfl
    · exact isReadable_of_isWordChar (htext.chars c hc)
  simp only [wordLine, List.mem_append, List.mem_cons, List.not_mem_nil, or_false] at hc
  rcases hc with (hc | rfl | rfl | hc) | rfl
  · exact isReadable_of_isWordChar (hkey.chars c hc)
  · rfl
  · rfl
  · exact hscalar hc
  · rfl

/-- A document may hold the lines of a key and its value. -/
theorem isReadable_of_mem_chars {key : List Char} (hkey : IsKey key) {value : BlockValue}
    (hvalue : value.Ok) {c : Char} (hc : c ∈ value.chars key) : isReadable c = true := by
  cases hvalue with
  | word htext => exact isReadable_of_mem_wordLine hkey.toWord htext hc
  | words hentries =>
    simp only [BlockValue.chars, List.mem_append, List.mem_cons, List.mem_flatMap] at hc
    rcases hc with hc | rfl | rfl | ⟨entry, hentry, rfl | rfl | hc⟩
    · exact isReadable_of_isWordChar (hkey.chars c hc)
    · rfl
    · rfl
    · rfl
    · rfl
    · obtain ⟨hsub, hword⟩ := hentries entry (List.mem_cons.mpr hentry)
      exact isReadable_of_mem_wordLine hsub.toWord hword hc

/-- The lines of entries are all that there is to scan. -/
theorem readable?_entries {entries : List (List Char × BlockValue)}
    (hentries : ∀ entry ∈ entries, IsKey entry.1 ∧ entry.2.Ok) :
    readable? (entries.flatMap fun entry => entry.2.chars entry.1) =
      some (entries.flatMap fun entry => entry.2.chars entry.1) := by
  have hstart := Scanner.startsToken_entries hentries
  have hmark : (entries.flatMap fun entry => entry.2.chars entry.1).head? ≠ some byteOrderMark := by
    intro hhead
    rw [hhead] at hstart
    cases hstart
  have hall : (entries.flatMap fun entry => entry.2.chars entry.1).all isReadable = true := by
    rw [List.all_eq_true]
    intro c hc
    obtain ⟨entry, hentry, hc⟩ := List.mem_flatMap.mp hc
    obtain ⟨hkey, hvalue⟩ := hentries entry hentry
    exact isReadable_of_mem_chars hkey hvalue hc
  simp only [readable?, if_neg hmark, if_pos hall]

/-- A block mapping with a first entry is scanned as its start, its entries and its end. -/
theorem tokens?_entries {entries : List (List Char × BlockValue)} (hne : entries ≠ [])
    (hentries : ∀ entry ∈ entries, IsKey entry.1 ∧ entry.2.Ok) :
    tokens? (entries.flatMap fun entry => entry.2.chars entry.1) =
      some (.blockMappingStart ::
        (entries.flatMap fun entry => BlockValue.entryTokens entry.1 entry.2.tokens) ++
          [.blockEnd]) := by
  unfold tokens?
  rw [readable?_entries hentries]
  cases entries with
  | nil => exact absurd rfl hne
  | cons entry entries =>
    obtain ⟨key, value⟩ := entry
    obtain ⟨hkey, hvalue⟩ := hentries (key, value) List.mem_cons_self
    have hmore : ∀ entry ∈ entries, IsKey entry.1 ∧ entry.2.Ok :=
      fun entry hentry => hentries entry (List.mem_cons_of_mem _ hentry)
    obtain ⟨i', l', hentry⟩ := Scanner.run?_entry (Scanner.startsToken_entries hmore) hkey hvalue
      (show ([] : List Nat).head?.all (· ≤ 0) = true from rfl) 0 0 []
    have hsteps := Scanner.steps_le key value
    simp only [List.flatMap_cons, List.length_append, Option.bind_eq_bind, Option.bind_some]
    obtain ⟨fuel, hfuel⟩ : ∃ k, (value.chars key).length +
        (entries.flatMap fun entry => entry.2.chars entry.1).length + 1 = k + value.steps :=
      ⟨(value.chars key).length + (entries.flatMap fun entry => entry.2.chars entry.1).length + 1 -
        value.steps, by omega⟩
    have hopened : Scanner.opened 0 [] = ([0], [.blockMappingStart]) := rfl
    rw [hfuel, hentry, hopened, Scanner.run?_entries entries hmore i' l' _ (by omega)]
    simp

end PortWarden.Yaml
