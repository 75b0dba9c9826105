import PortWarden.Text.Number
import PortWarden.Text.Unshown

/-!
# Quoted text

Text between double quotes, in which every character can be seen: the quote, the backslash and the
commonest controls are written as a backslash and one character, and other unshown characters by
their number.
-/

namespace PortWarden.Text

/-- The written form of a character inside quotes. -/
def quotedChar (c : Char) : List Char :=
  match c with
  | '\x00' => ['\\', '0']
  | '\t' => ['\\', 't']
  | '\r' => ['\\', 'r']
  | '\n' => ['\\', 'n']
  | '"' => ['\\', '"']
  | '\\' => ['\\', '\\']
  | c => if isUnshown c then ['\\', 'u', '\x7b'] ++ hexadecimal c.toNat ++ ['\x7d'] else [c]

/-- The written form of a text in quotes. -/
def quoted (cs : List Char) : List Char := '"' :: cs.flatMap quotedChar ++ ['"']

end PortWarden.Text
