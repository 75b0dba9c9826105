import PortWarden.Yaml.Scalar
import PortWarden.Yaml.Token

/-!
# Properties and directives

Reading what says something about a node or a document: anchors and aliases, tags, and the
directives that precede a document. Tags are kept as octets, one character for each.
-/

namespace PortWarden.Yaml

/-- The name of an anchor or alias, whose sign is at the place. -/
def anchorName? (c : Cursor) : Option (List Char × Cursor) :=
  let (name, after) := (c.skip 1).takeWhile isNameChar
  if name.isEmpty then none
  else if atGap after.rest || after.rest.head?.any ("?:,]\x7d%@\x60".toList.contains ·) then
    some (name, after)
  else none

/-- The octet of an escape in a tag. -/
def octet? : List Char → Option Nat
  | '%' :: a :: b :: _ => hexValue? [a, b]
  | _ => none

/-- How many octets a character takes, by the first of them. -/
def octetCount? (first : Nat) : Option Nat :=
  if first < 0x80 then some 1
  else if 0xC0 ≤ first && first < 0xE0 then some 2
  else if 0xE0 ≤ first && first < 0xF0 then some 3
  else if 0xF0 ≤ first && first < 0xF8 then some 4
  else none

/-- The octets of an escaped character, of which all but the first have to be marked as such. -/
def escapedOctets? (cs : List Char) : Option (List Nat) := do
  let first ← octet? cs
  let count ← octetCount? first
  let others ← (List.range (count - 1)).mapM fun i =>
    (octet? (cs.drop (3 * (i + 1)))).filter fun o => 0x80 ≤ o && o < 0xC0
  return first :: others

/-- The characters that a tag may hold; between angle brackets there are a few more. -/
def isTagChar (verbatim : Bool) (c : Char) : Bool :=
  isNameChar c || ";/?:@&=+$.%!~*'()".toList.contains c || (verbatim && ",[]".toList.contains c)

/-- The octets of a tag that follow, and how many characters they are written with. -/
def tagRun? (verbatim : Bool) : (fuel : Nat) → List Char → Option (List Char × Nat)
  | 0, _ => none
  | _ + 1, [] => some ([], 0)
  | fuel + 1, c :: cs =>
    if c = '%' then do
      let octets ← escapedOctets? (c :: cs)
      let n := 3 * octets.length
      let (run, m) ← tagRun? verbatim fuel (cs.drop (n - 1))
      return (octets.map Char.ofNat ++ run, m + n)
    else if isTagChar verbatim c then
      (tagRun? verbatim fuel cs).map fun (run, m) => (c :: run, m + 1)
    else some ([], 0)

/-- The octets of a tag at a place, and the place after them. -/
def tagText? (verbatim : Bool) (c : Cursor) : Option (List Char × Cursor) := do
  let (run, n) ← tagRun? verbatim (c.rest.length + 1) c.rest
  return (run, c.skip n)

/-- The handle that a tag starts with: an exclamation mark, perhaps a name, and perhaps another
mark. -/
def tagHandle (c : Cursor) : List Char × Cursor :=
  let (name, after) := (c.skip 1).takeWhile isNameChar
  if after.rest.head? = some '!' then ('!' :: name ++ ['!'], after.skip 1) else ('!' :: name, after)

/-- Whether a handle refers to a directive, rather than being the start of a tag. -/
def isNamedHandle (handle : List Char) : Bool := 2 ≤ handle.length && handle.getLast? == some '!'

/-- The tag at a place, before it is seen what follows. -/
def tagToken? (c : Cursor) : Option (Token × Cursor) :=
  if c.rest.tail.head? = some '<' then do
    let (text, after) ← tagText? true (c.skip 2)
    if text.isEmpty || after.rest.head? != some '>' then none
    else return (.tag [] text, after.skip 1)
  else
    let (handle, after) := tagHandle c
    if isNamedHandle handle then do
      let (text, after) ← tagText? false after
      if text.isEmpty then none else return (.tag handle text, after)
    else do
      let (text, after) ← tagText? false after
      let text := handle.tail ++ text
      return (if text.isEmpty then .tag [] ['!'] else .tag ['!'] text, after)

/-- The tag at a place. A gap has to follow it, or in a flow collection a comma. -/
def tag? (flow : Bool) (c : Cursor) : Option (Token × Cursor) := do
  let (token, after) ← tagToken? c
  if (flow && after.rest.head? == some ',') || atGap after.rest then return (token, after) else none

/-- A number in a directive, of at most nine digits. -/
def directiveNumber? (c : Cursor) : Option (Nat × Cursor) :=
  let (digits, after) := c.takeWhile Char.isDigit
  if digits.isEmpty || 9 < digits.length then none
  else (Text.readUnsigned 10 999999999 digits).toOption.map (·, after)

/-- The version in a directive. -/
def versionDirective? (c : Cursor) : Option (Token × Cursor) := do
  let (major, c) ← directiveNumber? (c.skipWhile isGap)
  if c.rest.head? ≠ some '.' then none
  let (minor, c) ← directiveNumber? (c.skip 1)
  return (.versionDirective major minor, c)

/-- A handle for tags and what it stands for, in a directive. -/
def tagDirective? (c : Cursor) : Option (Token × Cursor) := do
  let c := c.skipWhile isGap
  if c.rest.head? ≠ some '!' then none
  let (handle, c) := tagHandle c
  if !(isNamedHandle handle || handle == ['!']) || !c.rest.head?.any isGap then none
  let (start, c) ← tagText? true (c.skipWhile isGap)
  if start.isEmpty || !atGap c.rest then none
  return (.tagDirective handle start, c)

/-- The directive at a place, and the place at the start of the next line. -/
def directive? (c : Cursor) : Option (Token × Cursor) := do
  let (name, c) := (c.skip 1).takeWhile isNameChar
  if !atGap c.rest then none
  let (token, c) ←
    if name = "YAML".toList then versionDirective? c
    else if name = "TAG".toList then tagDirective? c
    else none
  return (token, ← c.finishLine?)

end PortWarden.Yaml
