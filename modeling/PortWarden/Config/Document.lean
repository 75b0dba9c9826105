import PortWarden.Config.Basic
import PortWarden.Yaml.Reference

/-!
# Configuration documents

A configuration as a YAML mapping. Every setting has one entry, settings without an entry keep their
defaults, entries of other names are passed over, and no setting may have two. Numbers and truth
values have to be plain scalars, while addresses may be written in any style.
-/

namespace PortWarden

open PortWarden.Text PortWarden.Yaml

namespace Config

/-! ## Writing -/

/-- A setting that a document can hold. -/
inductive Setting where
  | range
  | membershipRange
  | group
  | bindAddress
  | timeout
  | fastRandom
  | linkLocalWorkaround
  | attemptLimit
  | multicastInterface
  deriving DecidableEq, Repr

/-- The settings in the order in which they are written. -/
def Setting.all : List Setting :=
  [range, membershipRange, group, bindAddress, timeout, fastRandom, linkLocalWorkaround,
    attemptLimit, multicastInterface]

/-- The key of a setting. -/
def Setting.key : Setting → String
  | range => "range"
  | membershipRange => "membershipRange"
  | group => "mcastAddress"
  | bindAddress => "bindAddress"
  | timeout => "timeoutMs"
  | fastRandom => "fastRandom"
  | linkLocalWorkaround => "linkLocalWorkaround"
  | attemptLimit => "randomAttemptLimit"
  | multicastInterface => "multicastInterface"

/-- A scalar in plain style if it reads back from it, and in single quotes otherwise. An address can
only fail to by ending in a colon. -/
def scalarChars (text : List Char) : List Char :=
  if text.getLast? = some ':' then '\'' :: text ++ ['\''] else text

/-- The line of a setting with one value. -/
def valueLine (key : String) (value : List Char) : List Char :=
  key.toList ++ ':' :: ' ' :: value ++ ['\n']

/-- The lines of a setting that is a range. -/
def rangeLines (key : String) (r : PortRange) : List Char :=
  key.toList ++ ":\n".toList ++ valueLine "  start" (decimal r.lower.toNat) ++
    valueLine "  end" (decimal r.upper.toNat)

/-- A truth value as it is written. -/
def flagChars (b : Bool) : List Char := if b then "true".toList else "false".toList

/-- The lines of a setting, if it is set. -/
def entryChars? (c : Config) (s : Setting) : Option (List Char) :=
  match s with
  | .range => some (rangeLines s.key c.range)
  | .membershipRange => some (rangeLines s.key c.membershipRange)
  | .group => c.group.map fun a => valueLine s.key (scalarChars a.chars)
  | .bindAddress => c.bindAddress.map fun a => valueLine s.key (scalarChars a.chars)
  | .timeout => some (valueLine s.key (decimal c.timeout.toNat))
  | .fastRandom => some (valueLine s.key (flagChars c.fastRandom))
  | .linkLocalWorkaround => some (valueLine s.key (flagChars c.linkLocalWorkaround))
  | .attemptLimit => c.attemptLimit.map fun n => valueLine s.key (decimal n.toNat)
  | .multicastInterface => c.multicastInterface.map fun a => valueLine s.key a.chars

/-- The lines of some settings. -/
def documentChars (c : Config) (settings : List Setting) : List Char :=
  settings.flatMap fun s => (c.entryChars? s).getD []

/-- A configuration as a document. -/
def document (c : Config) : String := String.ofList (c.documentChars Setting.all)

/-! ## Reading -/

/-- The name of a tag that YAML itself defines. -/
def coreTag (name : String) : List Char := "tag:yaml.org,2002:".toList ++ name.toList

/-- The text of a scalar that may be a number or a truth value: a plain one, or a literal one that
is tagged as such. -/
def typedText? (tag : String) : Node Nat → Option (List Char)
  | .scalar .plain _ text => some text
  | .scalar .literal (some t) text => if t = coreTag tag then some text else none
  | _ => none

/-- The text after a sign of a base, if the text starts with it. -/
def afterBase? (sign : Char) : List Char → Option (List Char)
  | '0' :: c :: cs => if c = sign then some cs else none
  | _ => none

/-- Reads a number of up to 64 bits in decimal, or in another base after its sign. A decimal number
has no leading zeros. -/
def readNumber? (text : List Char) : Option Nat :=
  let digits := if text.head? = some '+' then text.tail else text
  let inBase (sign : Char) (base : Nat) : Option Nat := do
    (readUnsigned base maxUInt64 (← afterBase? sign digits)).toOption
  let inDecimal : Option Nat :=
    if 1 < digits.length ∧ digits.head? = some '0' ∧ digits.all Char.isDigit then none
    else (readUnsigned 10 maxUInt64 digits).toOption
  inBase 'x' 16 <|> inBase 'o' 8 <|> inBase 'b' 2 <|> inDecimal

/-- Reads a truth value. -/
def readBool? (text : List Char) : Option Bool :=
  if text ∈ ["true".toList, "True".toList, "TRUE".toList] then some true
  else if text ∈ ["false".toList, "False".toList, "FALSE".toList] then some false
  else none

/-- Whether a text is a word for nothing. -/
def isNull (text : List Char) : Bool :=
  text ∈ ["~".toList, "null".toList, "Null".toList, "NULL".toList]

/-- Whether a node of a setting that may be missing says that it is; a node that is tagged as
nothing has to say so. -/
def saysNothing? : Node Nat → Option Bool
  | .scalar .plain none text => some (text.isEmpty || isNull text)
  | .scalar .plain (some tag) text =>
    if tag = coreTag "null" then if isNull text then some true else none else some false
  | _ => some false

/-- The text of a scalar of any style. -/
def scalarText? : Node Nat → Option (List Char)
  | .scalar _ _ text => some text
  | _ => none

section

variable (d : Document)

/-- Reads a number of up to 64 bits. -/
def uint64? (n : Node Nat) : Option UInt64 := do
  return UInt64.ofNat (← readNumber? (← typedText? "int" (d.follow n)))

/-- Reads a number of up to 16 bits. -/
def uint16? (n : Node Nat) : Option UInt16 := do
  let value ← readNumber? (← typedText? "int" (d.follow n))
  if value ≤ maxUInt16 then return UInt16.ofNat value else none

/-- Reads a truth value. -/
def bool? (n : Node Nat) : Option Bool := do readBool? (← typedText? "bool" (d.follow n))

/-- Reads something that is written as an address. -/
def text? {α : Type} (read? : List Char → Option α) (n : Node Nat) : Option α := do
  read? (← scalarText? (d.follow n))

/-- Reads something that may be missing. -/
def orNothing? {α : Type} (read? : Node Nat → Option α) (n : Node Nat) : Option (Option α) := do
  if ← saysNothing? (d.follow n) then return none else return some (← read? n)

/-- The entries of a mapping by the texts of their keys. Where nothing is written, a mapping has no
entries. -/
def entries? (n : Node Nat) : Option (List (List Char × Node Nat)) :=
  match d.follow n with
  | .mapping entries =>
    entries.mapM fun (key, value) => do return (← scalarText? (d.follow key), value)
  | .scalar .plain _ [] => some []
  | _ => none

end

/-- The value of a key, if there is one; no key may have two. -/
def valueOf? (key : String) (entries : List (List Char × Node Nat)) : Option (Option (Node Nat)) :=
  match entries.filter (·.1 == key.toList) with
  | [] => some none
  | [(_, value)] => some (some value)
  | _ => none

/-- Reads the value of a key, which keeps a default if there is none. -/
def readEntry? {α : Type} (entries : List (List Char × Node Nat)) (key : String) (default : α)
    (read? : Node Nat → Option α) : Option α := do
  match ← valueOf? key entries with
  | none => return default
  | some value => read? value

/-- Reads a range, of which both bounds have to be there. -/
def range? (d : Document) (n : Node Nat) : Option PortRange := do
  let entries ← entries? d n
  let some lower ← valueOf? "start" entries | none
  let some upper ← valueOf? "end" entries | none
  return ⟨← uint16? d lower, ← uint16? d upper⟩

/-- Reads a configuration from the entries of a document. -/
def ofEntries? (d : Document) (entries : List (List Char × Node Nat)) : Option Config := do
  let c : Config := {}
  return {
    range := ← readEntry? entries Setting.range.key c.range (range? d)
    membershipRange := ← readEntry? entries Setting.membershipRange.key c.membershipRange (range? d)
    group := ← readEntry? entries Setting.group.key c.group (orNothing? d (text? d Address.read?))
    bindAddress :=
      ← readEntry? entries Setting.bindAddress.key c.bindAddress
        (orNothing? d (text? d Address.read?))
    timeout := ← readEntry? entries Setting.timeout.key c.timeout (uint64? d)
    fastRandom := ← readEntry? entries Setting.fastRandom.key c.fastRandom (bool? d)
    linkLocalWorkaround :=
      ← readEntry? entries Setting.linkLocalWorkaround.key c.linkLocalWorkaround (bool? d)
    attemptLimit :=
      ← readEntry? entries Setting.attemptLimit.key c.attemptLimit (orNothing? d (uint64? d))
    multicastInterface :=
      ← readEntry? entries Setting.multicastInterface.key c.multicastInterface
        (orNothing? d (text? d IPv4.read?)) }

/-- Reads a configuration from the text of a document. A text without a document is all defaults. -/
def ofDocument? (text : String) : Option Config := do
  match ← document? text.toList with
  | none => return {}
  | some n =>
    let d ← Document.ofNode? n
    ofEntries? d (← entries? d d.root)

/-! ## Files -/

/-- What reading a file gives. -/
abbrev FileContent := Except Errno ByteArray

/-- The text of a file. -/
def FileContent.text : FileContent → Except Failure String
  | .error errno => .error (.file (.system errno))
  | .ok bytes =>
    match String.fromUTF8? bytes with
    | some text => .ok text
    | none => .error (.file .notText)

/-- The configuration of a text, which has to be in order. -/
def ofText (text : String) : Except Failure Config :=
  match ofDocument? text with
  | none => .error .document
  | some c => c.check

/-- The configuration of a file, which has to be in order. -/
def load (content : FileContent) : Except Failure Config := FileContent.text content >>= ofText

end Config

end PortWarden
