import PortWarden.Yaml.Character

/-!
# Cursors

A place in a document: what follows, and the numbers of characters and lines before it. Columns
decide how a document is nested, and the other two numbers how far a key may lie before its colon.
-/

namespace PortWarden.Yaml

/-- A place in a document. -/
structure Cursor where
  /-- The characters that follow. -/
  rest : List Char
  /-- How many characters precede. -/
  index : Nat := 0
  /-- How many lines precede. -/
  line : Nat := 0
  /-- How many characters precede on the same line. -/
  column : Nat := 0
  deriving DecidableEq, Repr

namespace Cursor

/-- The place after some characters of the same line. -/
def skip (c : Cursor) (n : Nat) : Cursor :=
  { c with rest := c.rest.drop n, index := c.index + n, column := c.column + n }

/-- The characters that satisfy a condition, up to the first that does not, and the place after
them. None of them may end a line. -/
def takeWhile (c : Cursor) (p : Char → Bool) : List Char × Cursor :=
  let run := c.rest.takeWhile p
  (run, c.skip run.length)

/-- The place after the characters that satisfy a condition. -/
def skipWhile (c : Cursor) (p : Char → Bool) : Cursor := (c.takeWhile p).2

/-- The line break at a place, if there is one, and the place after it. A carriage return and a line
feed are one break, and all breaks but the two of their own kind read as line feeds. -/
def takeBreak? (c : Cursor) : Option (Char × Cursor) :=
  let after (cs : List Char) (n : Nat) : Cursor := ⟨cs, c.index + n, c.line + 1, 0⟩
  match c.rest with
  | '\r' :: '\n' :: cs => some ('\n', after cs 2)
  | b :: cs =>
    if b = '\u2028' ∨ b = '\u2029' then some (b, after cs 1)
    else if isBreak b then some ('\n', after cs 1)
    else none
  | [] => none

/-- The place at the start of the next line, if the line ends here; otherwise the same place. -/
def skipBreak (c : Cursor) : Cursor :=
  match c.takeBreak? with
  | some (_, after) => after
  | none => c

/-- The place after a comment, if one starts here. -/
def skipComment (c : Cursor) : Cursor :=
  if c.rest.head? = some '#' then c.skipWhile (!isBreak ·) else c

/-- Whether a line starts here with a mark of three characters that stands for itself. -/
def atMark (c : Cursor) (mark : List Char) : Bool :=
  c.column == 0 && c.rest.take 3 == mark && atGap (c.rest.drop 3)

/-- Whether a document starts or ends here. -/
def atDocumentMark (c : Cursor) : Bool := c.atMark ['-', '-', '-'] || c.atMark ['.', '.', '.']

/-- The place at the start of the next line, if nothing but a comment is left on this one. -/
def finishLine? (c : Cursor) : Option Cursor :=
  let c := (c.skipWhile isGap).skipComment
  if atBreak c.rest then some c.skipBreak else none

end Cursor

end PortWarden.Yaml
