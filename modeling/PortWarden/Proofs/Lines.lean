import PortWarden.Proofs.Words
import PortWarden.Yaml.Scanner

/-!
# Lines of block mappings

How the scanner goes over a line of a block mapping, from its key to the column at which the next
line starts. Between two lines it holds no possible key, so that a document is scanned by scanning
its lines one after the other.
-/

namespace PortWarden.Yaml

namespace Scanner

/-- A scanner goes over the spaces before a token and stops there, or at the end of the text. -/
theorem toNextToken_spaces {rest : List Char} (hrest : rest.head?.all startsToken = true)
    {s : Scanner} {n i l col : Nat} (hs : s.cursor = ⟨List.replicate n ' ' ++ rest, i, l, col⟩)
    (fuel : Nat) :
    s.toNextToken (fuel + 1) = { s with cursor := ⟨rest, i + n, l, col + n⟩ } := by
  have hhead (d : Char) (hd : startsToken d = false) : rest.head? ≠ some d := by
    intro hhead
    simp [hhead, hd] at hrest
  have hmark : (List.replicate n ' ' ++ rest).head? ≠ some byteOrderMark := by
    cases n with
    | zero => exact hhead byteOrderMark rfl
    | succ n => simp [List.replicate_succ, byteOrderMark]
  have hspaces : (List.replicate n ' ' ++ rest).takeWhile
      (fun d => d == ' ' || ((s.inFlow || !s.keyAllowed) && d == '\t')) = List.replicate n ' ' := by
    rw [List.takeWhile_append_of_pos (by simp)]
    cases rest with
    | nil => simp
    | cons d ds =>
      have hspace : d ≠ ' ' := fun h => hhead ' ' rfl (congrArg some h)
      have htab : d ≠ '\t' := fun h => hhead '\t' rfl (congrArg some h)
      simp [hspace, htab]
  have hcomment : rest.head? ≠ some '#' := hhead '#' rfl
  have hbreak := Cursor.takeBreak?_of_startsToken (c := ⟨rest, i + n, l, col + n⟩) hrest
  have hskip : Cursor.skip ⟨List.replicate n ' ' ++ rest, i, l, col⟩ n =
      ⟨rest, i + n, l, col + n⟩ := by simp [Cursor.skip]
  simp only [toNextToken, hs, hmark, and_false, if_false, Cursor.skipWhile, Cursor.takeWhile,
    hspaces, List.length_replicate, hskip, Cursor.skipComment, hcomment, hbreak]

/-- A scanner stays where a token starts, and at the end of the text. -/
theorem toNextToken_of_startsToken {s : Scanner} (hs : s.cursor.rest.head?.all startsToken = true)
    (fuel : Nat) : s.toNextToken (fuel + 1) = s :=
  toNextToken_spaces (n := 0) hs rfl fuel

/-- At the end of a line a scanner goes on with the next one, on which there may be a key. -/
theorem toNextToken_lineFeed {s : Scanner} {rest : List Char} {i l col : Nat}
    (hs : s.cursor = ⟨'\n' :: rest, i, l, col⟩) (hflow : s.inFlow = false) (fuel : Nat) :
    s.toNextToken (fuel + 1) =
      toNextToken fuel { s with cursor := ⟨rest, i + 1, l + 1, 0⟩, keyAllowed := true } := by
  simp [toNextToken, hs, Cursor.skipWhile, Cursor.takeWhile, Cursor.skip, Cursor.skipComment,
    Cursor.takeBreak?_lineFeed, hflow, byteOrderMark]

/-- What a scanner makes of a text depends on where the next token is. -/
theorem run?_congr {s s' : Scanner}
    (h : s.toNextToken (s.cursor.rest.length + 1) = s'.toNextToken (s'.cursor.rest.length + 1))
    (fuel : Nat) : run? fuel s = run? fuel s' := by
  cases fuel with
  | zero => rfl
  | succ fuel => simp only [run?, h]

/-- The spaces before a token may be left out. -/
theorem run?_spaces {rest : List Char} (hrest : rest.head?.all startsToken = true)
    {s : Scanner} {n i l col : Nat} (hs : s.cursor = ⟨List.replicate n ' ' ++ rest, i, l, col⟩)
    (fuel : Nat) :
    run? fuel s = run? fuel { s with cursor := ⟨rest, i + n, l, col + n⟩ } := by
  refine run?_congr ?_ fuel
  rw [toNextToken_spaces hrest hs, toNextToken_of_startsToken hrest]

/-- The end of a line may be left out, with the spaces at the start of the next one. -/
theorem run?_lineFeed {rest : List Char} (hrest : rest.head?.all startsToken = true)
    {s : Scanner} {n i l col : Nat}
    (hs : s.cursor = ⟨'\n' :: (List.replicate n ' ' ++ rest), i, l, col⟩)
    (hflow : s.inFlow = false) (fuel : Nat) :
    run? fuel s =
      run? fuel { s with cursor := ⟨rest, i + 1 + n, l + 1, n⟩, keyAllowed := true } := by
  refine run?_congr ?_ fuel
  rw [toNextToken_lineFeed hs hflow, toNextToken_of_startsToken hrest]
  have hlength : s.cursor.rest.length = (List.replicate n ' ' ++ rest).length + 1 := by rw [hs]; rfl
  rw [hlength, toNextToken_spaces hrest rfl, Nat.zero_add]

/-- What a scanner does with what follows where no possible key is too far away: it closes what the
place is left of, and scans a token or ends. -/
theorem run?_succ {s : Scanner} (hrest : s.cursor.rest.head?.all startsToken = true)
    (hstale : s.dropStaleKeys? = some s) (fuel : Nat) :
    run? (fuel + 1) s =
      let s := s.unroll s.cursor.column
      if s.cursor.rest.isEmpty then s.finish? else s.token? >>= run? fuel := by
  simp only [run?, toNextToken_of_startsToken hrest, hstale]
  rfl

/-- Where a token starts and no possible key is too far away, the token is scanned next. -/
theorem run?_token {s : Scanner} (hrest : s.cursor.rest.head?.all startsToken = true)
    (hne : s.cursor.rest ≠ []) (hstale : s.dropStaleKeys? = some s)
    (hunroll : s.unroll s.cursor.column = s) (fuel : Nat) :
    run? (fuel + 1) s = s.token? >>= run? fuel := by
  simp [run?_succ hrest hstale, hunroll, hne]

/-- The next token of a plain scalar's text is the plain scalar. -/
theorem token?_plain {text rest : List Char} (htext : Plain text) {s : Scanner} {i l col : Nat}
    (hs : s.cursor = ⟨text ++ rest, i, l, col⟩) (hflow : s.inFlow = false) :
    s.token? = s.plainScalar? := by
  have hmark := Cursor.atDocumentMark_word htext.toWord rest i l col
  simp only [Cursor.atDocumentMark, Bool.or_eq_false_iff] at hmark
  obtain ⟨⟨hne, hchars, -⟩, hlast⟩ := htext
  cases text with
  | nil => exact absurd rfl hne
  | cons c cs =>
    have hc : isWordChar c = true := hchars c List.mem_cons_self
    have hgap : isGapOrBreak c = false := isGapOrBreak_of_startsToken (startsToken_of_isWordChar hc)
    have hne (d : Char) (hd : isWordChar d = false) : (c == d) = false := by
      simpa using ne_of_isWordChar hc hd
    have hcs : ∀ d ∈ cs, isWordChar d = true := fun d hd => hchars d (List.mem_cons_of_mem _ hd)
    have hcolon := colon_not_before_gap rest hcs hlast
    have hwords : "-?:,[]\x7b\x7d#&*!|>'\"%@\x60".toList.all
        (fun d => !isWordChar d || d == ':') = true := by decide
    simp only [List.cons_append] at hmark hs
    -- the colon is the only sign among the word characters, and no gap follows it here
    simp [token?, hs, hmark, hne '%' rfl, hne '[' rfl, hne '\x7b' rfl, hne ']' rfl,
      hne '\x7d' rfl, hne ',' rfl, hne '-' rfl, hne '?' rfl, hne '*' rfl, hne '&' rfl, hne '!' rfl,
      hne '|' rfl, hne '>' rfl, hne '\'' rfl, hne '"' rfl, hflow, hcolon]
    intro hindicator hne
    have hmem := hindicator hgap
    have hword := List.all_eq_true.mp hwords c (by simpa [isIndicator] using hmem)
    exact absurd (by simpa [hc] using hword) hne

/-- The next token of a colon before a gap is the sign of a value. -/
theorem token?_colon {rest : List Char} (hrest : atGap rest = true) {s : Scanner} {i l col : Nat}
    (hs : s.cursor = ⟨':' :: rest, i, l, col⟩) : s.token? = s.value? := by
  simp [token?, hs, Cursor.atMark, hrest]

/-- The next token of a single quote is a quoted scalar. -/
theorem token?_quote {rest : List Char} {s : Scanner} {i l col : Nat}
    (hs : s.cursor = ⟨'\'' :: rest, i, l, col⟩) :
    s.token? = s.quotedScalar? .singleQuoted := by
  simp [token?, hs, Cursor.atMark]

/-- A place outside of flow collections closes nothing if the innermost block collection does not
stand right of it. -/
theorem unroll_of_le {s : Scanner} {col : Nat} (hindents : s.indents.head?.all (· ≤ col) = true) :
    s.unroll col = s := by
  obtain ⟨c, indents, key, outerKeys, allowed, tokens⟩ := s
  cases indents with
  | nil => simp [unroll, closing]
  | cons i is =>
    have hi : ¬col < i := by simpa using hindents
    simp [unroll, closing, hi]

/-! ## Keys -/

/-- The columns that are open behind a key, and the start of a mapping if one starts with it. -/
def opened (col : Nat) (indents : List Nat) : List Nat × List Token :=
  if indents.head?.all (· < col) then (col :: indents, [.blockMappingStart]) else (indents, [])

section

variable {rest : List Char} (hrest : atGap rest = true) {indents : List Nat} {col : Nat}
  (hindents : indents.head?.all (· ≤ col) = true) (fuel i l : Nat) (tokens : List Token)

include hrest hindents

/-- The text of a key is scanned as a plain scalar that may turn out to be a key. -/
theorem run?_keyText {key : List Char} (hkey : Plain key) :
    run? (fuel + 1) { cursor := ⟨key ++ ':' :: rest, i, l, col⟩, indents, tokens } =
      run? fuel {
        cursor := ⟨':' :: rest, i + key.length, l, col + key.length⟩
        indents
        key := some ⟨indents.head? == some col, tokens.length, ⟨key ++ ':' :: rest, i, l, col⟩⟩
        keyAllowed := false
        tokens := .scalar .plain key :: tokens } := by
  have hstart : (key ++ ':' :: rest).head?.all startsToken = true := hkey.toWord.startsToken _
  rw [run?_token hstart (by simp) rfl (unroll_of_le hindents), token?_plain hkey rfl rfl]
  simp [plainScalar?, saveKey?, dropKey?, inFlow, plain?_key hkey hrest, emit]

/-- A colon makes the scalar before it a key, and starts a mapping with it if the key stands right
of the collection around it. -/
theorem run?_colon {key : PossibleKey} (hplace : key.place = tokens.length) {n : Nat}
    (hfresh : PossibleKey.isStale key ⟨':' :: rest, i, l, col + n⟩ = false)
    (hcolumn : key.start.column = col) (t : Token) :
    run? (fuel + 1) {
        cursor := ⟨':' :: rest, i, l, col + n⟩
        indents
        key := some key
        keyAllowed := false
        tokens := t :: tokens } =
      run? fuel {
        cursor := ⟨rest, i + 1, l, col + n + 1⟩
        indents := (opened col indents).1
        keyAllowed := false
        tokens := .value :: t :: .key :: ((opened col indents).2 ++ tokens) } := by
  have hinner : indents.head?.all (· ≤ col + n) = true := by
    cases indents with
    | nil => rfl
    | cons i is =>
      have hi : i ≤ col := by simpa using hindents
      simp only [List.head?_cons, Option.all_some, decide_eq_true_eq]
      omega
  rw [run?_token rfl (by simp) (by simp [dropStaleKeys?, hfresh]) (unroll_of_le hinner),
    token?_colon hrest rfl]
  simp only [value?, makeKey, hplace, hcolumn, opens, inFlow, opened]
  split <;> simp_all [Scanner.skip, Cursor.skip, emit]

/-- A key and its colon are scanned as the two parts of an entry. -/
theorem run?_key {key : List Char} (hkey : Plain key) (hlength : key.length ≤ 1024) :
    run? (fuel + 2) { cursor := ⟨key ++ ':' :: rest, i, l, col⟩, indents, tokens } =
      run? fuel {
        cursor := ⟨rest, i + key.length + 1, l, col + key.length + 1⟩
        indents := (opened col indents).1
        keyAllowed := false
        tokens := .value :: .scalar .plain key :: .key :: ((opened col indents).2 ++ tokens) } := by
  rw [run?_keyText hrest hindents (fuel + 1) i l tokens hkey]
  refine run?_colon hrest hindents fuel (i + key.length) l tokens rfl ?_ rfl _
  simp only [PossibleKey.isStale, Bool.or_eq_false_iff, decide_eq_false_iff_not]
  omega

end

/-! ## Values -/

section

variable {rest : List Char} (hrest : rest.head?.all startsToken = true) {n col indent : Nat}
  (hindent : indent ≤ col) (fuel i l : Nat) (indents : List Nat) (tokens : List Token)

include hrest hindent

/-- A plain value is scanned to the end of its line and on to the next token, which does not stand
right of the mapping around the value. -/
theorem run?_plain {text : List Char} (htext : Plain text) (hn : n ≤ indent) :
    run? (fuel + 1) {
        cursor := ⟨' ' :: (text ++ '\n' :: (List.replicate n ' ' ++ rest)), i, l, col⟩
        indents := indent :: indents
        keyAllowed := false
        tokens } =
      run? fuel {
        cursor := ⟨rest, i + 1 + text.length + 1 + n, l + 1, n⟩
        indents := indent :: indents
        tokens := .scalar .plain text :: tokens } := by
  have hstart := htext.toWord.startsToken ('\n' :: (List.replicate n ' ' ++ rest))
  have hindents : (indent :: indents).head?.all (· ≤ col + 1) = true := by
    simp only [List.head?_cons, Option.all_some, decide_eq_true_eq]
    omega
  have hread := plain?_value htext hrest (Nat.lt_succ_of_le hn) (i + 1) l (col + 1)
  rw [run?_spaces (n := 1) hstart rfl, run?_token hstart (by simp) rfl (unroll_of_le hindents),
    token?_plain htext rfl rfl]
  simp [plainScalar?, saveKey?, inFlow, innerColumn, hread, emit]

/-- A quoted value is scanned as a value, and the end of its line is passed over. -/
theorem run?_quoted {text : List Char} (htext : ∀ c ∈ text, isWordChar c = true) :
    run? (fuel + 1) {
        cursor :=
          ⟨' ' :: '\'' :: (text ++ '\'' :: '\n' :: (List.replicate n ' ' ++ rest)), i, l, col⟩
        indents := indent :: indents
        keyAllowed := false
        tokens } =
      run? fuel {
        cursor := ⟨rest, i + 1 + text.length + 2 + 1 + n, l + 1, n⟩
        indents := indent :: indents
        tokens := .scalar .singleQuoted text :: tokens } := by
  have hindents : (indent :: indents).head?.all (· ≤ col + 1) = true := by
    simp only [List.head?_cons, Option.all_some, decide_eq_true_eq]
    omega
  have hquote : ('\n' :: (List.replicate n ' ' ++ rest)).head? ≠ some '\'' := by simp
  have hread := quoted?_single htext hquote (i + 1) l (col + 1)
  let after : Scanner := {
    cursor := ⟨'\n' :: (List.replicate n ' ' ++ rest), i + 1 + text.length + 2, l,
      col + 1 + text.length + 2⟩
    indents := indent :: indents
    keyAllowed := false
    tokens := .scalar .singleQuoted text :: tokens }
  have hline : run? fuel after = _ := run?_lineFeed hrest rfl rfl fuel
  rw [run?_spaces (n := 1) rfl rfl, run?_token rfl (by simp) rfl (unroll_of_le hindents),
    token?_quote rfl, ← hline]
  simp [quotedScalar?, saveKey?, hread, emit, after]

end

/-! ## Between lines -/

/-- The columns that something at a column leaves open are closed no further by it. -/
theorem closing_closing (col : Nat) (indents : List Nat) :
    closing col (closing col indents).1 = ((closing col indents).1, []) := by
  induction indents with
  | nil => rfl
  | cons i is ih =>
    by_cases hi : col < i
    · simpa [closing, hi] using ih
    · simp [closing, hi]

/-- The mappings that the next line closes may be closed before it is scanned. -/
theorem run?_closing {rest : List Char} (hrest : rest.head?.all startsToken = true)
    (fuel i l col : Nat) (indents : List Nat) (tokens : List Token) :
    run? fuel { cursor := ⟨rest, i, l, col⟩, indents, tokens } =
      run? fuel {
        cursor := ⟨rest, i, l, col⟩
        indents := (closing col indents).1
        tokens := (closing col indents).2 ++ tokens } := by
  cases fuel with
  | zero => rfl
  | succ fuel =>
    rw [run?_succ hrest rfl, run?_succ hrest rfl]
    simp only [unroll, inFlow, closing_closing]
    rfl

/-- At the end of the text the last mappings are closed. -/
theorem run?_end (fuel i l : Nat) {col : Nat} {indents : List Nat}
    (hindents : indents.head?.all (· ≤ col) = true) (tokens : List Token) :
    run? (fuel + 1) { cursor := ⟨[], i, l, col⟩, indents, tokens } =
      some (indents.map (fun _ => Token.blockEnd) ++ tokens).reverse := by
  rw [run?_succ rfl rfl, unroll_of_le hindents]
  rfl

end Scanner

end PortWarden.Yaml
