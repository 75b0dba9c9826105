import PortWarden.Yaml.Scalar

/-!
# Words

The keys and values of a configuration are words: letters, digits, points and colons. A word that
does not end in a colon is read as one plain scalar, behind a key's colon as well as before it, and
any word is read from between single quotes.
-/

namespace PortWarden.Yaml

/-! ## Words -/

/-- The characters of the keys and values: ASCII letters, digits, the point and the colon. -/
def isWordChar (c : Char) : Bool :=
  let n := c.toNat
  n == 0x2E || (0x30 ≤ n && n ≤ 0x3A) || (0x41 ≤ n && n ≤ 0x5A) || (0x61 ≤ n && n ≤ 0x7A)

/-- The characters that a token can start with, rather than something between two tokens. -/
def startsToken (c : Char) : Bool := !isGapOrBreak c && c != '#' && c != byteOrderMark

/-- A text of word characters that cannot be taken for a mark of a document. -/
structure Word (text : List Char) : Prop where
  /-- There is something to read. -/
  ne_nil : text ≠ []
  /-- No character separates parts of a line. -/
  chars : ∀ c ∈ text, isWordChar c = true
  /-- It is not the mark of a document's end. -/
  head : text.head? ≠ some '.'

/-- A word that is read as a plain scalar wherever one can stand. -/
structure Plain (text : List Char) : Prop extends Word text where
  /-- It does not end in a colon, behind which a value would start. -/
  last : text.getLast? ≠ some ':'

instance (text : List Char) : Decidable (Word text) :=
  decidable_of_iff (text ≠ [] ∧ text.all isWordChar = true ∧ text.head? ≠ some '.')
    ⟨fun ⟨hnil, hall, hhead⟩ => ⟨hnil, List.all_eq_true.mp hall, hhead⟩,
      fun h => ⟨h.ne_nil, List.all_eq_true.mpr h.chars, h.head⟩⟩

instance (text : List Char) : Decidable (Plain text) :=
  decidable_of_iff (Word text ∧ text.getLast? ≠ some ':')
    ⟨fun ⟨hword, hlast⟩ => ⟨hword, hlast⟩, fun h => ⟨h.toWord, h.last⟩⟩

/-- A word character differs from every character that is none. -/
theorem ne_of_isWordChar {c d : Char} (hc : isWordChar c = true) (hd : isWordChar d = false) :
    c ≠ d := by
  rintro rfl
  rw [hd] at hc
  cases hc

/-- A document may hold word characters. -/
theorem isReadable_of_isWordChar {c : Char} (hc : isWordChar c = true) : isReadable c = true := by
  simp only [isWordChar, Bool.or_eq_true, Bool.and_eq_true, decide_eq_true_eq, beq_iff_eq] at hc
  have hbounds : 0x20 ≤ c.toNat ∧ c.toNat ≤ 0x7E := by omega
  simp [isReadable, hbounds]

/-- A word character starts a token. -/
theorem startsToken_of_isWordChar {c : Char} (hc : isWordChar c = true) : startsToken c = true := by
  have hne (d : Char) (hd : isWordChar d = false) : c ≠ d := ne_of_isWordChar hc hd
  simp [startsToken, isGapOrBreak, isGap, isBreak, byteOrderMark, hne ' ' rfl, hne '\t' rfl,
    hne '\n' rfl, hne '\r' rfl, hne '\x85' rfl, hne '\u2028' rfl, hne '\u2029' rfl, hne '#' rfl,
    hne '\ufeff' rfl]

/-- A character that starts a token separates nothing. -/
theorem isGapOrBreak_of_startsToken {c : Char} (hc : startsToken c = true) :
    isGapOrBreak c = false := by
  simp only [startsToken, Bool.and_eq_true, Bool.not_eq_true'] at hc
  exact hc.1.1

/-- No value starts behind the first character of a word that does not end in a colon. -/
theorem colon_not_before_gap {c : Char} {cs : List Char} (rest : List Char)
    (hchars : ∀ d ∈ cs, isWordChar d = true) (hlast : (c :: cs).getLast? ≠ some ':') :
    (c == ':' && atGap (cs ++ rest)) = false := by
  cases cs with
  | nil =>
    have hne : c ≠ ':' := fun h => hlast (h ▸ rfl)
    simp [hne]
  | cons d ds =>
    have hd := startsToken_of_isWordChar (hchars d List.mem_cons_self)
    simp [atGap, isGapOrBreak_of_startsToken hd]

/-- A plain word is read up to where a scalar ends. -/
theorem plainRun?_append {text rest : List Char} (hchars : ∀ c ∈ text, isWordChar c = true)
    (hlast : text.getLast? ≠ some ':') (hrest : plainRun? false rest = some []) :
    plainRun? false (text ++ rest) = some text := by
  induction text with
  | nil => exact hrest
  | cons c cs ih =>
    have hc : isWordChar c = true := hchars c List.mem_cons_self
    have hcs : ∀ c ∈ cs, isWordChar c = true := fun d hd => hchars d (List.mem_cons_of_mem _ hd)
    have hgap : isGapOrBreak c = false := isGapOrBreak_of_startsToken (startsToken_of_isWordChar hc)
    have hcolon := colon_not_before_gap rest hcs hlast
    have htail : cs.getLast? ≠ some ':' := by
      cases cs with
      | nil => simp
      | cons d ds => rwa [List.getLast?_cons_cons] at hlast
    simp [plainRun?, hgap, hcolon, ih hcs htail]

/-! ## Places -/

namespace Cursor

/-- The place after a text. -/
theorem skip_append (text rest : List Char) (i l col : Nat) :
    skip ⟨text ++ rest, i, l, col⟩ text.length = ⟨rest, i + text.length, l, col + text.length⟩ := by
  simp [skip]

/-- A word does not start with a mark of a document. -/
theorem atDocumentMark_word {text : List Char} (htext : Word text) (rest : List Char)
    (i l col : Nat) : atDocumentMark ⟨text ++ rest, i, l, col⟩ = false := by
  obtain ⟨hne, hchars, hhead⟩ := htext
  cases text with
  | nil => exact absurd rfl hne
  | cons c cs =>
    have hhyphen : c ≠ '-' := ne_of_isWordChar (hchars c List.mem_cons_self) rfl
    have hpoint : c ≠ '.' := fun h => hhead (congrArg some h)
    simp [atDocumentMark, atMark, hhyphen, hpoint]

/-- No line ends where a token starts. -/
theorem takeBreak?_of_startsToken {c : Cursor} (hrest : c.rest.head?.all startsToken = true) :
    c.takeBreak? = none := by
  obtain ⟨rest, i, l, col⟩ := c
  cases rest with
  | nil => rfl
  | cons d ds =>
    have hd : isGapOrBreak d = false := isGapOrBreak_of_startsToken (by simpa using hrest)
    simp only [isGapOrBreak, isBreak, Bool.or_eq_false_iff, beq_eq_false_iff_ne] at hd
    simp [takeBreak?, isBreak, hd]

/-- A line feed is a line break. -/
theorem takeBreak?_lineFeed (rest : List Char) (i l col : Nat) :
    takeBreak? ⟨'\n' :: rest, i, l, col⟩ = some ('\n', ⟨rest, i + 1, l + 1, 0⟩) := rfl

end Cursor

/-- A gap ends where a token starts. -/
theorem Gap.read_of_startsToken (indent fuel : Nat) (g : Gap) {c : Cursor}
    (hrest : c.rest.head?.all startsToken = true) : Gap.read indent fuel g c = some (g, c) := by
  cases fuel with
  | zero => rfl
  | succ fuel =>
    simp only [Gap.read, Cursor.takeBreak?_of_startsToken hrest]
    rcases hhead : c.rest.head? with _ | d
    · rfl
    · have hd : isGapOrBreak d = false := isGapOrBreak_of_startsToken (by simpa [hhead] using hrest)
      simp only [isGapOrBreak, isGap, Bool.or_eq_false_iff, beq_eq_false_iff_ne] at hd
      split
      · exact absurd (Option.some.inj ‹_›) hd.1.1
      · exact absurd (Option.some.inj ‹_›) hd.1.2
      · rfl

/-- After a line break, the spaces before the next token add nothing to a gap. -/
theorem Gap.read_spaces (indent : Nat) {rest : List Char}
    (hrest : rest.head?.all startsToken = true) {g : Gap} (hbreaks : g.breaks.isEmpty = false)
    (n fuel i l col : Nat) (hfuel : n ≤ fuel) :
    Gap.read indent fuel g ⟨List.replicate n ' ' ++ rest, i, l, col⟩ =
      some (g, ⟨rest, i + n, l, col + n⟩) := by
  induction n generalizing fuel i col with
  | zero => exact Gap.read_of_startsToken indent fuel g hrest
  | succ n ih =>
    obtain ⟨fuel, rfl⟩ : ∃ k, fuel = k + 1 := ⟨fuel - 1, by omega⟩
    have hspace : g.addSpace ' ' = g := by simp [Gap.addSpace, hbreaks]
    have hstep : Gap.read indent (fuel + 1) g ⟨List.replicate (n + 1) ' ' ++ rest, i, l, col⟩ =
        Gap.read indent fuel (g.addSpace ' ')
          ⟨List.replicate n ' ' ++ rest, i + 1, l, col + 1⟩ := rfl
    rw [hstep, hspace, ih fuel (i + 1) (col + 1) (by omega)]
    simp only [Nat.add_assoc, Nat.add_comm 1 n]

/-- The gap behind a value at the end of its line reaches up to the next token. -/
theorem Gap.read_lineFeed (indent : Nat) {rest : List Char}
    (hrest : rest.head?.all startsToken = true) (n fuel i l col : Nat) (hfuel : n < fuel) :
    Gap.read indent fuel {} ⟨'\n' :: (List.replicate n ' ' ++ rest), i, l, col⟩ =
      some ({ breaks := ['\n'] }, ⟨rest, i + 1 + n, l + 1, n⟩) := by
  obtain ⟨fuel, rfl⟩ : ∃ k, fuel = k + 1 := ⟨fuel - 1, by omega⟩
  have hspaces := Gap.read_spaces indent hrest (g := { breaks := ['\n'] }) rfl n fuel (i + 1)
    (l + 1) 0 (by omega)
  rw [Nat.zero_add] at hspaces
  exact hspaces

/-! ## Scalars -/

section

variable {text : List Char}

/-- A token starts with a word. -/
theorem Word.startsToken (htext : Word text) (rest : List Char) :
    (text ++ rest).head?.all Yaml.startsToken = true := by
  obtain ⟨hne, hchars, -⟩ := htext
  cases text with
  | nil => exact absurd rfl hne
  | cons c cs => exact startsToken_of_isWordChar (hchars c List.mem_cons_self)

/-- A word does not start a comment. -/
theorem Word.not_comment (htext : Word text) (rest : List Char) :
    ((text ++ rest).head? == some '#') = false := by
  have hstart := htext.startsToken rest
  rw [beq_eq_false_iff_ne]
  intro hhead
  rw [hhead] at hstart
  cases hstart

/-- A plain scalar that is a key ends before its colon. -/
theorem plain?_key (htext : Plain text) {rest : List Char} (hrest : atGap rest = true)
    (indent i l col : Nat) :
    plain? false indent ⟨text ++ ':' :: rest, i, l, col⟩ =
      some ⟨text, ⟨':' :: rest, i + text.length, l, col + text.length⟩, false⟩ := by
  have hend : plainRun? false (':' :: rest) = some [] := by
    simp [plainRun?, hrest, isGapOrBreak, isGap, isBreak]
  have hrun := plainRun?_append htext.chars htext.last hend
  have hmark := Cursor.atDocumentMark_word htext.toWord (':' :: rest) i l col
  have hcomment := htext.toWord.not_comment (':' :: rest)
  have hne : text.isEmpty = false := by simpa using htext.ne_nil
  simp only [plain?, plainLines?, hmark, hcomment, hrun, Option.bind_eq_bind, Option.bind_some,
    Cursor.skip_append, hne]
  rfl

/-- A plain scalar that is a value ends with its line if the next one starts no further right than
the mapping around it. -/
theorem plain?_value (htext : Plain text) {rest : List Char}
    (hrest : rest.head?.all startsToken = true) {n indent : Nat} (hn : n < indent) (i l col : Nat) :
    plain? false indent ⟨text ++ '\n' :: (List.replicate n ' ' ++ rest), i, l, col⟩ =
      some ⟨text, ⟨rest, i + text.length + 1 + n, l + 1, n⟩, true⟩ := by
  have hend : plainRun? false ('\n' :: (List.replicate n ' ' ++ rest)) = some [] := rfl
  have hrun := plainRun?_append htext.chars htext.last hend
  have hmark := Cursor.atDocumentMark_word htext.toWord ('\n' :: (List.replicate n ' ' ++ rest)) i l
    col
  have hcomment := htext.toWord.not_comment ('\n' :: (List.replicate n ' ' ++ rest))
  have hne : text.isEmpty = false := by simpa using htext.ne_nil
  have hbreak : ('\n' :: (List.replicate n ' ' ++ rest)).head?.any isGapOrBreak = true := rfl
  have hlength : n < ('\n' :: (List.replicate n ' ' ++ rest)).length := by
    simp only [List.length_cons, List.length_append, List.length_replicate]
    omega
  have hgap := Gap.read_lineFeed indent hrest n _ (i + text.length) l (col + text.length) hlength
  simp only [plain?, plainLines?, hmark, hcomment, hrun, Option.bind_eq_bind, Option.bind_some,
    Cursor.skip_append, hne, Bool.or_self, Bool.false_eq_true, if_false]
  rw [if_pos hbreak, hgap]
  exact if_pos (by simpa using hn)

/-- The characters between two quotes are read up to the closing one. -/
theorem quotedRun?_append (htext : ∀ c ∈ text, isWordChar c = true) {rest : List Char}
    (hrest : rest.head? ≠ some '\'') (fuel : Nat) (hfuel : text.length < fuel) :
    quotedRun? true fuel (text ++ '\'' :: rest) = some (text, .quote, text.length) := by
  induction text generalizing fuel with
  | nil =>
    obtain ⟨fuel, rfl⟩ : ∃ k, fuel = k + 1 := ⟨fuel - 1, by omega⟩
    have hgap : isGapOrBreak '\'' = false := rfl
    simp [quotedRun?, hgap, hrest]
  | cons c cs ih =>
    obtain ⟨fuel, rfl⟩ : ∃ k, fuel = k + 1 := ⟨fuel - 1, by omega⟩
    have hc : isWordChar c = true := htext c List.mem_cons_self
    have hgap : isGapOrBreak c = false := isGapOrBreak_of_startsToken (startsToken_of_isWordChar hc)
    have hquote : c ≠ '\'' := ne_of_isWordChar hc rfl
    have hcs := ih (fun d hd => htext d (List.mem_cons_of_mem _ hd)) fuel
      (by simp only [List.length_cons] at hfuel; omega)
    simp [quotedRun?, hgap, hquote, hcs]

/-- A scalar in single quotes inside a line is read as the text between them. -/
theorem quoted?_single (htext : ∀ c ∈ text, isWordChar c = true) {rest : List Char}
    (hrest : rest.head? ≠ some '\'') (i l col : Nat) :
    quoted? true ⟨'\'' :: (text ++ '\'' :: rest), i, l, col⟩ =
      some ⟨text, ⟨rest, i + text.length + 2, l, col + text.length + 2⟩, false⟩ := by
  have hskip : Cursor.skip ⟨'\'' :: (text ++ '\'' :: rest), i, l, col⟩ 1 =
      ⟨text ++ '\'' :: rest, i + 1, l, col + 1⟩ := rfl
  have hmark : Cursor.atDocumentMark ⟨text ++ '\'' :: rest, i + 1, l, col + 1⟩ = false := by
    simp [Cursor.atDocumentMark, Cursor.atMark]
  have hne : (text ++ '\'' :: rest).isEmpty = false := by simp
  have hlength : text.length < (text ++ '\'' :: rest).length + 1 := by
    simp only [List.length_append, List.length_cons]
    omega
  have hrun := quotedRun?_append htext hrest _ hlength
  simp only [quoted?, quotedParts?, hskip, hmark, hne, hrun, Option.bind_eq_bind, Option.bind_some,
    Cursor.skip_append, Bool.or_self, Bool.false_eq_true, if_false]
  have hindex : i + 1 + text.length + 1 = i + text.length + 2 := by omega
  have hcolumn : col + 1 + text.length + 1 = col + text.length + 2 := by omega
  rw [← hindex, ← hcolumn]
  rfl

end

end PortWarden.Yaml
