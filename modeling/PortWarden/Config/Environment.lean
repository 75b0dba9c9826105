import PortWarden.Config.Basic
import PortWarden.Event
import PortWarden.Host.Resolve

/-!
# Settings from the environment

Variables that override single settings. They are read in a fixed order, the first that cannot be
read is the failure, and only the configuration that results from all of them is judged. A
membership range that cannot be read is no failure: the default one is used and a warning reported.
-/

namespace PortWarden

open PortWarden.Text

/-- The values of variables. -/
abbrev Environment := String → Option String

/-- A reading of settings: it may ask the resolver and report events. -/
abbrev Configuring (α : Type) := ExceptT Failure (StateM (Logged Host)) α

/-- A variable that overrides a setting. -/
structure Variable where
  /-- Its name. -/
  key : String
  /-- Reads its value as a change of the configuration, which the configuration has no part in. -/
  read : String → Configuring (Config → Config)

namespace Variable

/-- Reads a value with blanks around it. -/
def readValue {α : Type} (read? : List Char → Option α) (key value : String) : Configuring α :=
  match read? (trim value.toList) with
  | some a => pure a
  | none => throw (.config (.invalidValue key value))

/-- The truth value of a word, in any mixture of ASCII capitals and small letters. Nothing is
false. -/
def flag? (word : String) : Option Bool :=
  match lowerCase word with
  | "true" | "1" | "yes" | "on" => some true
  | "false" | "0" | "no" | "off" | "" => some false
  | _ => none

/-- Reads a truth value with blanks around it. -/
def readFlag (key value : String) : Configuring Bool :=
  match flag? (String.ofList (trim value.toList)) with
  | some b => pure b
  | none => throw (.config (.notBoolean key value))

/-- Reads an address or a name. -/
def readAddress (value : String) : Configuring Address := fun w =>
  let (answer, host) := Host.resolve value w.state
  (answer, { w with state := host })

/-- The digits that a text starts with, if there are any, and the text after them. -/
def takeDigits? (cs : List Char) : Option (List Char × List Char) :=
  match cs.span (digit? 10 · |>.isSome) with
  | ([], _) => none
  | (digits, rest) => some (digits, rest)

/-- The two runs of digits of a text that consists of them and a dash between them, blanks allowed
around each. -/
def matchBounds? (cs : List Char) : Option (List Char × List Char) := do
  let (lower, rest) ← takeDigits? (trimStart cs)
  let '-' :: rest := trimStart rest | none
  let (upper, rest) ← takeDigits? (trimStart rest)
  if (trimStart rest).isEmpty then return (lower, upper) else none

/-- The usable range of a text of two numbers without signs. -/
def membershipRange? (value : String) : Option PortRange := do
  let (lower, upper) ← matchBounds? value.toList
  let range : PortRange := ⟨← (readUInt16 lower).toOption, ← (readUInt16 upper).toOption⟩
  range.check.toOption

/-- Reads a membership range, or uses the default one. -/
def readMembershipRange (value : String) : Configuring PortRange :=
  match membershipRange? value with
  | some range => pure range
  | none => do
    modify (·.note (.membershipRangeIgnored value defaultMembershipRange))
    return defaultMembershipRange

/-- The variable of a name whose value is read by `read` and stored by `store`. -/
def setting {α : Type} (key : String) (read : String → String → Configuring α)
    (store : α → Config → Config) : Variable where
  key := key
  read value := store <$> read key value

/-- The lower bound of the general range. -/
def lowerBound : Variable :=
  setting "AVAILABLE_PORT_LOWER_BOUND" (readValue (readUInt16 · |>.toOption)) fun lower c =>
    { c with range := { c.range with lower } }

/-- The upper bound of the general range. -/
def upperBound : Variable :=
  setting "AVAILABLE_PORT_UPPER_BOUND" (readValue (readUInt16 · |>.toOption)) fun upper c =>
    { c with range := { c.range with upper } }

/-- The membership range. -/
def membershipRange : Variable :=
  setting "AVAILABLE_PORT_MEMBERSHIP_RANGE" (fun _ => readMembershipRange) fun membershipRange c =>
    { c with membershipRange }

/-- The multicast group. -/
def group : Variable :=
  setting "AVAILABLE_PORT_MCAST_ADDRESS" (fun _ => readAddress) fun group c =>
    { c with group := some group }

/-- The address for stream ports. -/
def bindAddress : Variable :=
  setting "AVAILABLE_PORT_BIND_ADDRESS" (fun _ => readAddress) fun address c =>
    { c with bindAddress := some address }

/-- The time to wait for an answer. -/
def timeout : Variable :=
  setting "AVAILABLE_PORT_TIMEOUT" (readValue (readUInt64 · |>.toOption)) fun timeout c =>
    { c with timeout }

/-- The kind of generator. -/
def fastRandom : Variable :=
  setting "AVAILABLE_PORT_FAST_RANDOM" readFlag fun fastRandom c => { c with fastRandom }

/-- Whether failing link-local addresses count as free. -/
def linkLocalWorkaround : Variable :=
  setting "AVAILABLE_PORT_LINK_LOCAL_WORKAROUND" readFlag fun linkLocalWorkaround c =>
    { c with linkLocalWorkaround }

/-- The limit of attempts. -/
def attemptLimit : Variable :=
  setting "AVAILABLE_PORT_RANDOM_ATTEMPT_LIMIT" (readValue (readUInt64 · |>.toOption))
    fun limit c => { c with attemptLimit := some limit }

/-- The interface for messages to IPv4 groups. -/
def multicastInterface : Variable :=
  setting "AVAILABLE_PORT_MCAST_INTERFACE" (readValue IPv4.read?) fun interface c =>
    { c with multicastInterface := some interface }

/-- Every variable, in the order in which they are read. -/
def all : List Variable :=
  [lowerBound, upperBound, membershipRange, group, bindAddress, timeout, fastRandom,
    linkLocalWorkaround, attemptLimit, multicastInterface]

/-- Overrides the setting of a variable if it has a value. -/
def apply (env : Environment) (v : Variable) (c : Config) : Configuring Config :=
  match env v.key with
  | none => pure c
  | some value => do return (← v.read value) c

end Variable

namespace Config

/-- Overrides settings by variables one after the other. -/
def assignAll (env : Environment) : List Variable → Config → Configuring Config
  | [], c => pure c
  | v :: vs, c => do assignAll env vs (← v.apply env c)

/-- Lays the variables of an environment over a configuration. -/
def overlay (c : Config) (env : Environment) : Configuring Config := do
  MonadExcept.ofExcept (← assignAll env Variable.all c).check

end Config

end PortWarden
