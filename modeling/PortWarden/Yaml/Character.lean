/-!
# Characters of a document

Which characters a YAML document may hold, and the classes of them that separate its parts.
-/

namespace PortWarden.Yaml

/-- The mark that may precede a document, and within it any line. -/
def byteOrderMark : Char := '\ufeff'

/-- The characters that a document may hold. -/
def isReadable (c : Char) : Bool :=
  let n := c.toNat
  n == 0x09 || n == 0x0A || n == 0x0D || (0x20 ≤ n && n ≤ 0x7E) || n == 0x85 ||
    (0xA0 ≤ n && n ≤ 0xFFFD) || 0x10000 ≤ n

/-- The characters that end a line. -/
def isBreak (c : Char) : Bool :=
  c == '\n' || c == '\r' || c == '\x85' || c == '\u2028' || c == '\u2029'

/-- The characters that separate parts of a line. -/
def isGap (c : Char) : Bool := c == ' ' || c == '\t'

/-- The characters that separate parts of a line or end it. -/
def isGapOrBreak (c : Char) : Bool := isGap c || isBreak c

/-- Whether a text ends here, or a character follows that separates parts of a line or ends it. -/
def atGap (cs : List Char) : Bool := cs.head?.all isGapOrBreak

/-- Whether a text ends here, or the line does. -/
def atBreak (cs : List Char) : Bool := cs.head?.all isBreak

/-- The characters of names: ASCII letters, digits, the underscore and the hyphen. -/
def isNameChar (c : Char) : Bool := c.isAlphanum || c == '_' || c == '-'

/-- The characters of a text, without a mark before them, if a document may hold them all. -/
def readable? (text : List Char) : Option (List Char) :=
  let cs := if text.head? = some byteOrderMark then text.tail else text
  if cs.all isReadable then some cs else none

end PortWarden.Yaml
