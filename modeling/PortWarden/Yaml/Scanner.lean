import PortWarden.Yaml.Property

/-!
# From text to tokens

Block collections have no marks of their own: they start where something stands further right than
the collection around it, and end where something stands further left. A mapping is only recognised
by the colon behind its first key, so a token that may be a key is remembered, and the tokens before
it are put in when the colon comes.
-/

namespace PortWarden.Yaml

/-- A token that may turn out to be a key. -/
structure PossibleKey where
  /-- Whether it stands where only a key can stand. -/
  required : Bool
  /-- How many tokens precede it. -/
  place : Nat
  /-- Where it starts. -/
  start : Cursor
  deriving DecidableEq, Repr

/-- A document that has been split into tokens up to some place. -/
structure Scanner where
  /-- The place. -/
  cursor : Cursor
  /-- The columns of the open block collections, the innermost first. -/
  indents : List Nat := []
  /-- The possible key in the innermost flow collection, or outside of all. -/
  key : Option PossibleKey := none
  /-- The possible keys around it, one for each open flow collection. -/
  outerKeys : List (Option PossibleKey) := []
  /-- Whether a key may stand at the place. -/
  keyAllowed : Bool := true
  /-- The tokens, the latest first. -/
  tokens : List Token := []
  deriving DecidableEq, Repr

namespace Scanner

/-- Whether the place is inside a flow collection, where columns mean nothing. -/
def inFlow (s : Scanner) : Bool := !s.outerKeys.isEmpty

/-- The column that text inside the innermost block collection must not stand left of. -/
def innerColumn (s : Scanner) : Nat := (s.indents.head?.map (· + 1)).getD 0

/-- Adds a token. -/
def emit (s : Scanner) (t : Token) : Scanner := { s with tokens := t :: s.tokens }

/-- Moves on along the line. -/
def skip (s : Scanner) (n : Nat) : Scanner := { s with cursor := s.cursor.skip n }

/-! ## Indentation -/

/-- The columns left open by something at a column, and the ends of those closed by it. -/
def closing (column : Nat) : List Nat → List Nat × List Token
  | [] => ([], [])
  | i :: is =>
    if column < i then
      let (left, ends) := closing column is
      (left, .blockEnd :: ends)
    else (i :: is, [])

/-- Closes the block collections that stand right of a column. -/
def unroll (s : Scanner) (column : Nat) : Scanner :=
  if s.inFlow then s
  else
    let (indents, ends) := closing column s.indents
    { s with indents, tokens := ends ++ s.tokens }

/-- Closes all block collections. -/
def unrollAll (s : Scanner) : Scanner :=
  if s.inFlow then s
  else { s with indents := [], tokens := s.indents.map (fun _ => .blockEnd) ++ s.tokens }

/-- Whether something at a column starts a block collection. -/
def opens (s : Scanner) (column : Nat) : Bool := !s.inFlow && s.indents.head?.all (· < column)

/-- Starts a block collection with something at a column that stands right of the one around it. -/
def roll (s : Scanner) (column : Nat) (start : Token) : Scanner :=
  if s.opens column then { s with indents := column :: s.indents }.emit start else s

/-! ## Keys -/

/-- Gives up a possible key, unless only a key can stand there. -/
def dropKey? (s : Scanner) : Option Scanner :=
  if s.key.any (·.required) then none else some { s with key := none }

/-- Remembers the next token as a possible key, where one may stand. -/
def saveKey? (s : Scanner) : Option Scanner :=
  if s.keyAllowed then do
    let s ← s.dropKey?
    let required := !s.inFlow && s.indents.head? == some s.cursor.column
    return { s with key := some ⟨required, s.tokens.length, s.cursor⟩ }
  else some s

/-- Whether a key is too far away for a colon at a place: on another line, or more than 1024
characters before. -/
def PossibleKey.isStale (k : PossibleKey) (c : Cursor) : Bool :=
  k.start.line < c.line || k.start.index + 1024 < c.index

/-- Gives up the possible keys that are too far away. -/
def dropStaleKeys? (s : Scanner) : Option Scanner :=
  let isStale (k : Option PossibleKey) : Bool := k.any fun k => PossibleKey.isStale k s.cursor
  let fresh (k : Option PossibleKey) : Option PossibleKey := if isStale k then none else k
  if (s.key :: s.outerKeys).any fun k => isStale k && k.any (·.required) then none
  else some { s with key := fresh s.key, outerKeys := s.outerKeys.map fresh }

/-- Turns a remembered token into a key, and starts a mapping with it if it stands right of the
collection around. -/
def makeKey (s : Scanner) (k : PossibleKey) : Scanner :=
  let later := s.tokens.take (s.tokens.length - k.place)
  let earlier := s.tokens.drop (s.tokens.length - k.place)
  let s := { s with key := none, keyAllowed := false }
  if s.opens k.start.column then
    { s with
      indents := k.start.column :: s.indents
      tokens := later ++ .key :: .blockMappingStart :: earlier }
  else { s with tokens := later ++ .key :: earlier }

/-! ## Between tokens -/

/-- Moves over gaps, comments and line breaks. Tabs are no indentation: where a key may stand in a
block collection they stop the search. -/
def toNextToken : (fuel : Nat) → Scanner → Scanner
  | 0, s => s
  | fuel + 1, s =>
    let c := s.cursor
    let c := if c.column = 0 ∧ c.rest.head? = some byteOrderMark then c.skip 1 else c
    let c := c.skipWhile fun d => d == ' ' || ((s.inFlow || !s.keyAllowed) && d == '\t')
    let c := c.skipComment
    match c.takeBreak? with
    | some (_, after) =>
      toNextToken fuel { s with cursor := after, keyAllowed := s.keyAllowed || !s.inFlow }
    | none => { s with cursor := c }

/-! ## Tokens -/

/-- A directive. -/
def directive? (s : Scanner) : Option Scanner := do
  let s ← s.unrollAll.dropKey?
  let (token, after) ← Yaml.directive? s.cursor
  return { s with cursor := after, keyAllowed := false }.emit token

/-- The mark of a document's start or end. -/
def documentMark? (s : Scanner) (t : Token) : Option Scanner := do
  let s ← s.unrollAll.dropKey?
  return { s with keyAllowed := false }.skip 3 |>.emit t

/-- The start of a flow collection. -/
def flowStart? (s : Scanner) (t : Token) : Option Scanner := do
  let s ← s.saveKey?
  return { s with key := none, outerKeys := s.key :: s.outerKeys, keyAllowed := true }.skip 1
    |>.emit t

/-- The end of a flow collection. -/
def flowEnd? (s : Scanner) (t : Token) : Option Scanner := do
  let s ← s.dropKey?
  let (key, outerKeys) := match s.outerKeys with
    | [] => (s.key, [])
    | key :: outerKeys => (key, outerKeys)
  return { s with key, outerKeys, keyAllowed := false }.skip 1 |>.emit t

/-- A comma between parts of a flow collection. -/
def flowEntry? (s : Scanner) : Option Scanner := do
  let s ← s.dropKey?
  return { s with keyAllowed := true }.skip 1 |>.emit .flowEntry

/-- The hyphen before a part of a block sequence. -/
def blockEntry? (s : Scanner) : Option Scanner := do
  if !s.inFlow && !s.keyAllowed then none
  let s ← (s.roll s.cursor.column .blockSequenceStart).dropKey?
  return { s with keyAllowed := true }.skip 1 |>.emit .blockEntry

/-- The question mark before a key. -/
def explicitKey? (s : Scanner) : Option Scanner := do
  if !s.inFlow && !s.keyAllowed then none
  let s ← (s.roll s.cursor.column .blockMappingStart).dropKey?
  return { s with keyAllowed := !s.inFlow }.skip 1 |>.emit .key

/-- The colon before a value. -/
def value? (s : Scanner) : Option Scanner := do
  let s ← match s.key with
    | some k => some (s.makeKey k)
    | none =>
      if s.inFlow then some { s with keyAllowed := false }
      else if s.keyAllowed then some (s.roll s.cursor.column .blockMappingStart)
      else none
  return s.skip 1 |>.emit .value

/-- An anchor or alias. -/
def anchor? (s : Scanner) (make : List Char → Token) : Option Scanner := do
  let s ← s.saveKey?
  let (name, after) ← anchorName? s.cursor
  return { s with cursor := after, keyAllowed := false }.emit (make name)

/-- A tag. -/
def tag? (s : Scanner) : Option Scanner := do
  let s ← s.saveKey?
  let (token, after) ← Yaml.tag? s.inFlow s.cursor
  return { s with cursor := after, keyAllowed := false }.emit token

/-- A literal or folded scalar. -/
def blockScalar? (s : Scanner) (style : ScalarStyle) : Option Scanner := do
  let s ← s.dropKey?
  let read ← block? (style == .literal) s.indents.head? s.cursor
  return { s with cursor := read.after, keyAllowed := true }.emit (.scalar style read.text)

/-- A quoted scalar. -/
def quotedScalar? (s : Scanner) (style : ScalarStyle) : Option Scanner := do
  let s ← s.saveKey?
  let read ← quoted? (style == .singleQuoted) s.cursor
  return { s with cursor := read.after, keyAllowed := false }.emit (.scalar style read.text)

/-- A plain scalar. One that ends with its line leaves room for a key. -/
def plainScalar? (s : Scanner) : Option Scanner := do
  let s ← s.saveKey?
  let read ← plain? s.inFlow s.innerColumn s.cursor
  return { s with cursor := read.after, keyAllowed := read.endsLine }.emit
    (.scalar .plain read.text)

/-- The characters that a plain scalar cannot start with; three of them it can if no gap follows. -/
def isIndicator (c : Char) : Bool := "-?:,[]\x7b\x7d#&*!|>'\"%@\x60".toList.contains c

/-- The token at the place, which is not the end of the text. -/
def token? (s : Scanner) : Option Scanner :=
  match s.cursor.rest with
  | [] => none
  | c :: cs =>
    let gapFollows := atGap cs
    if c == '%' && s.cursor.column == 0 then s.directive?
    else if s.cursor.atMark ['-', '-', '-'] then s.documentMark? .documentStart
    else if s.cursor.atMark ['.', '.', '.'] then s.documentMark? .documentEnd
    else if c == '[' then s.flowStart? .flowSequenceStart
    else if c == '\x7b' then s.flowStart? .flowMappingStart
    else if c == ']' then s.flowEnd? .flowSequenceEnd
    else if c == '\x7d' then s.flowEnd? .flowMappingEnd
    else if c == ',' then s.flowEntry?
    else if c == '-' && gapFollows then s.blockEntry?
    else if c == '?' && (s.inFlow || gapFollows) then s.explicitKey?
    else if c == ':' && (s.inFlow || gapFollows) then s.value?
    else if c == '*' then s.anchor? .alias
    else if c == '&' then s.anchor? .anchor
    else if c == '!' then s.tag?
    else if c == '|' && !s.inFlow then s.blockScalar? .literal
    else if c == '>' && !s.inFlow then s.blockScalar? .folded
    else if c == '\'' then s.quotedScalar? .singleQuoted
    else if c == '"' then s.quotedScalar? .doubleQuoted
    else if !(isGapOrBreak c || isIndicator c) || c == '-' ||
        (!s.inFlow && (c == '?' || c == ':')) then
      s.plainScalar?
    else none

/-- The end of the text, which closes everything that columns have opened. -/
def finish? (s : Scanner) : Option (List Token) := do
  let s ← s.unrollAll.dropKey?
  return s.tokens.reverse

/-- Splits the text that follows into tokens. -/
def run? : (fuel : Nat) → Scanner → Option (List Token)
  | 0, _ => none
  | fuel + 1, s => do
    let s ← (s.toNextToken (s.cursor.rest.length + 1)).dropStaleKeys?
    let s := s.unroll s.cursor.column
    if s.cursor.rest.isEmpty then s.finish? else run? fuel (← s.token?)

end Scanner

/-- The tokens of a text, if it consists of tokens. -/
def tokens? (text : List Char) : Option (List Token) := do
  let cs ← readable? text
  Scanner.run? (cs.length + 1) { cursor := { rest := cs } }

end PortWarden.Yaml
