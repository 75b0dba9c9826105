import PortWarden.Text.Number
import PortWarden.Yaml.Cursor

/-!
# Scalars

Reading the text of a scalar in each of the five styles. Within a scalar, line breaks are folded: a
single one stands for a space, and of several the first is left out. Only a literal scalar keeps
them all.
-/

namespace PortWarden.Yaml

/-- What separates two parts of a scalar. -/
structure Gap where
  /-- The gap characters, if the parts stand on one line. -/
  spaces : List Char := []
  /-- The line breaks between them. -/
  breaks : List Char := []
  deriving DecidableEq, Repr

namespace Gap

/-- The text that line breaks stand for. -/
def foldBreaks : List Char → List Char
  | ['\n'] => [' ']
  | '\n' :: more => more
  | breaks => breaks

/-- The text that a gap stands for. -/
def text (g : Gap) : List Char := if g.breaks.isEmpty then g.spaces else foldBreaks g.breaks

/-- Adds a gap character, which only counts before the first line break. -/
def addSpace (g : Gap) (c : Char) : Gap :=
  if g.breaks.isEmpty then { g with spaces := g.spaces ++ [c] } else g

/-- Adds a line break. -/
def addBreak (g : Gap) (c : Char) : Gap := { g with breaks := g.breaks ++ [c] }

/-- Reads gap characters and line breaks onto a gap. After a line break, no tab may stand left of
the column `indent`. -/
def read (indent : Nat) : (fuel : Nat) → Gap → Cursor → Option (Gap × Cursor)
  | 0, g, c => some (g, c)
  | fuel + 1, g, c =>
    match c.takeBreak? with
    | some (b, after) => read indent fuel (g.addBreak b) after
    | none =>
      match c.rest.head? with
      | some ' ' => read indent fuel (g.addSpace ' ') (c.skip 1)
      | some '\t' =>
        if !g.breaks.isEmpty && c.column < indent then none
        else read indent fuel (g.addSpace '\t') (c.skip 1)
      | _ => some (g, c)

end Gap

/-! ## Plain scalars -/

/-- The characters that separate parts of a flow collection. -/
def isFlowIndicator (c : Char) : Bool :=
  c == ',' || c == '[' || c == ']' || c == '\x7b' || c == '\x7d'

/-- The part of a plain scalar up to the next gap or the end of the scalar. In a flow collection a
colon must not be followed by something that would end the value at once. -/
def plainRun? (flow : Bool) : List Char → Option (List Char)
  | [] => some []
  | c :: cs =>
    if isGapOrBreak c then some []
    else if c == ':' && flow && cs.head?.any (fun d => isFlowIndicator d || d == '?') then none
    else if (c == ':' && atGap cs) || (flow && isFlowIndicator c) then some []
    else (plainRun? flow cs).map (c :: ·)

/-- A scalar and the place after it. -/
structure ScalarRead where
  /-- The text of the scalar. -/
  text : List Char
  /-- Where it ends. -/
  after : Cursor
  /-- Whether a line break follows it. -/
  endsLine : Bool := false
  deriving DecidableEq, Repr

/-- Reads a plain scalar on, after `text` and `gap`. Lines after the first have to start at the
column `indent` or right of it. -/
def plainLines? (flow : Bool) (indent : Nat) : (fuel : Nat) → (text : List Char) → Gap → Cursor →
    Option ScalarRead
  | 0, _, _, _ => none
  | fuel + 1, text, gap, c =>
    let ended : ScalarRead := ⟨text, c, !gap.breaks.isEmpty⟩
    if c.atDocumentMark || c.rest.head? == some '#' then some ended
    else do
      let run ← plainRun? flow c.rest
      let after := c.skip run.length
      let text := if run.isEmpty then text else text ++ gap.text ++ run
      let gap := if run.isEmpty then gap else {}
      if after.rest.head?.any isGapOrBreak then
        let (gap, after) ← gap.read indent after.rest.length after
        if !flow && after.column < indent then return ⟨text, after, !gap.breaks.isEmpty⟩
        plainLines? flow indent fuel text gap after
      else return ⟨text, after, !gap.breaks.isEmpty⟩

/-- Reads a plain scalar, of which a line has to start at the column `indent` or right of it. -/
def plain? (flow : Bool) (indent : Nat) (c : Cursor) : Option ScalarRead :=
  plainLines? flow indent (c.rest.length + 1) [] {} c

/-! ## Quoted scalars -/

/-- The value of hexadecimal digits. -/
def hexValue? (digits : List Char) : Option Nat :=
  digits.foldlM (fun acc c => (Text.digit? 16 c).map (acc * 16 + ·)) 0

/-- The character of a code point. -/
def codePoint? (n : Nat) : Option Char := if n.isValidChar then some (Char.ofNat n) else none

/-- The character of an escape that consists of one letter. -/
def escapeChar? : Char → Option Char
  | '0' => some '\x00'
  | 'a' => some '\x07'
  | 'b' => some '\x08'
  | 't' | '\t' => some '\t'
  | 'n' => some '\n'
  | 'v' => some '\x0b'
  | 'f' => some '\x0c'
  | 'r' => some '\r'
  | 'e' => some '\x1b'
  | ' ' => some ' '
  | '"' => some '"'
  | '/' => some '/'
  | '\\' => some '\\'
  | 'N' => some '\x85'
  | '_' => some '\xa0'
  | 'L' => some '\u2028'
  | 'P' => some '\u2029'
  | _ => none

/-- How many hexadecimal digits follow a letter in an escape. -/
def escapeLength? : Char → Option Nat
  | 'x' => some 2
  | 'u' => some 4
  | 'U' => some 8
  | _ => none

/-- The character that an escape stands for, by the characters after the backslash, and how many of
them it takes. -/
def escape? : List Char → Option (Char × Nat)
  | [] => none
  | c :: cs =>
    match escapeLength? c with
    | none => (escapeChar? c).map (·, 1)
    | some n => do
      if cs.length < n then none
      return (← codePoint? (← hexValue? (cs.take n)), n + 1)

/-- What a part of a quoted scalar ends with. -/
inductive QuotedEnd where
  /-- The closing quote. -/
  | quote
  /-- A gap or a line break. -/
  | gap
  /-- A backslash before a line break, which leaves the break out. -/
  | escapedBreak
  deriving DecidableEq, Repr

/-- The part of a quoted scalar up to the next gap or quote, what ends it, and how many characters
it takes; the last backslash before a line break is one of them, a closing quote is not. -/
def quotedRun? (single : Bool) : (fuel : Nat) → List Char → Option (List Char × QuotedEnd × Nat)
  | 0, _ => none
  | _ + 1, [] => some ([], .gap, 0)
  | fuel + 1, c :: cs =>
    let read (d : Char) (n : Nat) : Option (List Char × QuotedEnd × Nat) :=
      (quotedRun? single fuel (cs.drop (n - 1))).map
        fun (run, ending, m) => (d :: run, ending, m + n)
    if isGapOrBreak c then some ([], .gap, 0)
    else if single then
      if c = '\'' then
        if cs.head? = some '\'' then read '\'' 2 else some ([], .quote, 0)
      else read c 1
    else if c = '"' then some ([], .quote, 0)
    else if c = '\\' then
      if cs.head?.any isBreak then some ([], .escapedBreak, 1)
      else do
        let (d, n) ← escape? cs
        read d (n + 1)
    else read c 1

/-- Reads a quoted scalar on, after `text`. After an escaped line break, gap characters are left out
and further line breaks kept. -/
def quotedParts? (single : Bool) : (fuel : Nat) → (text : List Char) → Cursor → Option ScalarRead
  | 0, _, _ => none
  | fuel + 1, text, c =>
    if c.atDocumentMark || c.rest.isEmpty then none
    else do
      let (run, ending, n) ← quotedRun? single (c.rest.length + 1) c.rest
      let after := c.skip n
      match ending with
      | .quote => return ⟨text ++ run, after.skip 1, false⟩
      | .gap =>
        let (gap, after) ← Gap.read 0 after.rest.length {} after
        quotedParts? single fuel (text ++ run ++ gap.text) after
      | .escapedBreak =>
        let after := after.skipBreak
        let (gap, after) ← Gap.read 0 after.rest.length {} after
        quotedParts? single fuel (text ++ run ++ gap.breaks) after

/-- Reads a quoted scalar, whose opening quote is at the place. -/
def quoted? (single : Bool) (c : Cursor) : Option ScalarRead :=
  quotedParts? single (c.rest.length + 1) [] (c.skip 1)

/-! ## Block scalars -/

/-- What becomes of the line breaks at the end of a block scalar. -/
inductive Chomping where
  /-- All are left out. -/
  | strip
  /-- The first is kept. -/
  | clip
  /-- All are kept. -/
  | keep
  deriving DecidableEq, Repr

/-- What stands behind the indicator of a block scalar. -/
structure BlockHeader where
  /-- What becomes of the line breaks at the end. -/
  chomping : Chomping := .clip
  /-- By how much the text is indented, if that is said. -/
  increment : Option Nat := none
  deriving DecidableEq, Repr

/-- A digit from 1 to 9; a zero is refused. -/
def blockIncrement? (c : Cursor) : Option (Option Nat × Cursor) :=
  match c.rest.head? with
  | none => some (none, c)
  | some d =>
    if d = '0' then none
    else
      match Text.digit? 10 d with
      | some n => some (some n, c.skip 1)
      | none => some (none, c)

/-- A sign that says what becomes of the line breaks at the end. -/
def blockChomping? (c : Cursor) : Option (Chomping × Cursor) :=
  match c.rest.head? with
  | some '+' => some (.keep, c.skip 1)
  | some '-' => some (.strip, c.skip 1)
  | _ => none

/-- Reads the signs behind the indicator of a block scalar, which come in either order. -/
def blockHeader? (c : Cursor) : Option (BlockHeader × Cursor) :=
  match blockChomping? c with
  | some (chomping, c) => do
    let (increment, c) ← blockIncrement? c
    return (⟨chomping, increment⟩, c)
  | none => do
    let (increment, c) ← blockIncrement? c
    match increment, blockChomping? c with
    | some _, some (chomping, c) => return (⟨chomping, increment⟩, c)
    | _, _ => return (⟨.clip, increment⟩, c)

/-- Skips the indentation of lines and reads the empty ones among them. `indent` is the column of
the text, 0 if it is still to be found; `widest` is the largest column reached. -/
def blockBreaks? (indent : Nat) : (fuel : Nat) → (widest : Nat) → (breaks : List Char) → Cursor →
    Option (Nat × List Char × Cursor)
  | 0, _, _, _ => none
  | fuel + 1, widest, breaks, c =>
    let spaces := (c.rest.takeWhile (· == ' ')).length
    let c := c.skip (if indent = 0 then spaces else min spaces (indent - c.column))
    let widest := max widest c.column
    if (indent == 0 || c.column < indent) && c.rest.head? == some '\t' then none
    else
      match c.takeBreak? with
      | some (b, after) => blockBreaks? indent fuel widest (breaks ++ [b]) after
      | none => some (widest, breaks, c)

/-- What has been read of a block scalar: the text, the break after its last line, the empty lines
after that, and whether its last line starts with a gap. -/
structure BlockText where
  text : List Char := []
  lineBreak : List Char := []
  emptyLines : List Char := []
  startsWithGap : Bool := false
  deriving DecidableEq, Repr

/-- The text with the line breaks that precede a further line. A folded scalar joins two lines that
do not start with gaps. -/
def BlockText.joined (b : BlockText) (literal startsWithGap : Bool) : List Char :=
  if !literal && b.lineBreak.head? == some '\n' && !b.startsWithGap && !startsWithGap then
    b.text ++ (if b.emptyLines.isEmpty then [' '] else b.emptyLines)
  else b.text ++ b.lineBreak ++ b.emptyLines

/-- Reads the lines of a block scalar, whose text starts at the column `indent`. -/
def blockLines? (literal : Bool) (indent : Nat) : (fuel : Nat) → BlockText → Cursor →
    Option (BlockText × Cursor)
  | 0, _, _ => none
  | fuel + 1, b, c =>
    if c.column ≠ indent ∨ c.rest.isEmpty then some (b, c)
    else do
      let startsWithGap := c.rest.head?.any isGap
      let (line, after) := c.takeWhile (!isBreak ·)
      let text := b.joined literal startsWithGap ++ line
      let (lineBreak, after) := match after.takeBreak? with
        | some (br, after) => ([br], after)
        | none => ([], after)
      let (_, emptyLines, after) ← blockBreaks? indent (after.rest.length + 1) 0 [] after
      blockLines? literal indent fuel ⟨text, lineBreak, emptyLines, startsWithGap⟩ after

/-- The text of a block scalar after its end has been cut. -/
def BlockText.chomped (b : BlockText) : Chomping → List Char
  | .strip => b.text
  | .clip => b.text ++ b.lineBreak
  | .keep => b.text ++ b.lineBreak ++ b.emptyLines

/-- Reads a block scalar, whose indicator is at the place, inside a collection at the column
`parent`. -/
def block? (literal : Bool) (parent : Option Nat) (c : Cursor) : Option ScalarRead := do
  let (header, c) ← blockHeader? (c.skip 1)
  let c ← c.finishLine?
  let least := match parent with
    | none => 1
    | some column => column + 1
  let said := header.increment.map fun n => parent.getD 0 + n
  let (widest, emptyLines, c) ← blockBreaks? (said.getD 0) (c.rest.length + 1) 0 [] c
  let indent := said.getD (max widest least)
  let (b, c) ← blockLines? literal indent (c.rest.length + 1) { emptyLines } c
  return ⟨b.chomped header.chomping, c, false⟩

end PortWarden.Yaml
