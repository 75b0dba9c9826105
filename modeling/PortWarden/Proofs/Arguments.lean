import PortWarden.Proofs.Execution

/-!
# What arguments give

A command line gives what its arguments give, taken one after the other. What is given was taken
from an argument that is listed, so a command line that is accepted never gives two things of which
one excludes the other.
-/

namespace PortWarden.CommandLine

/-- For how many seconds a port is to be held, if it is to be held. -/
def Task.seconds? : Task → Option UInt64
  | .hold _ seconds | .holdRandom _ seconds => some seconds
  | .check _ | .pickInRange _ | .pick _ => none

namespace Given

/-- What arguments can give that are taken one after the other. -/
inductive Taken : Given → Prop
  /-- At first nothing is given. -/
  | nothing : Taken {}
  /-- One more argument is taken. -/
  | more {g g' : Given} (a : Argument) (value : Option String) :
      Taken g → g.take a value = .ok g' → Taken g'

/-- Whether an argument has given something. -/
def has (g : Given) : Argument → Bool
  | .protocol => g.protocol.isSome
  | .port => g.port.isSome
  | .address => g.address.isSome
  | .membership => g.membership
  | .range => g.range.isSome
  | .keep => g.keep.isSome
  | .config => g.configPath.isSome
  | .json => g.json
  | .verbose => g.verbosity != 0
  | .help | .version => false

variable {g g' : Given} {a : Argument}

/-- A value that is stored is on the list of arguments. -/
theorem store_eq_ok {α : Type} {value : String} {read : String → Except ValueFault α}
    {set : α → Given} (hstore : g.store a value read set = .ok g') :
    ∃ x, g' = { set x with arguments := g.arguments ++ [a] } := by
  unfold store at hstore
  cases hread : read value with
  | error fault =>
    rw [hread] at hstore
    cases hstore
  | ok x =>
    rw [hread] at hstore
    cases hstore
    exact ⟨x, rfl⟩

/-- What an argument changes: it is listed, and nothing is given but by it. -/
structure Adds (g : Given) (a : Argument) (g' : Given) : Prop where
  /-- The argument is listed after the others. -/
  arguments : g'.arguments = g.arguments ++ [a]
  /-- What is given was given before, or is given by the argument. -/
  has : ∀ b, g'.has b = true → g.has b = true ∨ b = a

/-- Taking the value of an argument adds that. -/
theorem adds_of_takeValue {value : String} (htake : g.takeValue a value = .ok g') :
    g.Adds a g' := by
  cases a with
  | protocol | port | address | range | keep =>
    simp only [takeValue] at htake
    obtain ⟨x, rfl⟩ := store_eq_ok htake
    exact ⟨rfl, fun b => by cases b <;> simp [has]⟩
  | config =>
    simp only [takeValue] at htake
    split at htake
    · cases htake
    · obtain ⟨x, rfl⟩ := store_eq_ok htake
      exact ⟨rfl, fun b => by cases b <;> simp [has]⟩
  | _ => cases htake

/-- Taking a flag adds that. -/
theorem adds_of_takeFlag (htake : g.takeFlag a = .ok g') : g.Adds a g' := by
  cases a with
  | membership | json | verbose =>
    cases htake
    exact ⟨rfl, fun b => by cases b <;> simp [has]⟩
  | _ => cases htake

/-- Taking an argument adds that. -/
theorem adds_of_take {value : Option String} (htake : g.take a value = .ok g') : g.Adds a g' := by
  unfold take at htake
  split at htake
  · cases htake
  · split at htake
    · cases htake
    · cases value with
      | some value => exact adds_of_takeValue htake
      | none => exact adds_of_takeFlag htake

/-- Whatever is given was given by an argument that is listed. -/
theorem Taken.listed (htaken : g.Taken) {a : Argument} (hhas : g.has a = true) :
    a ∈ g.arguments := by
  induction htaken with
  | nothing => cases a <;> cases hhas
  | more b value _ htake ih =>
    have hadds := adds_of_take htake
    rw [hadds.arguments, List.mem_append, List.mem_singleton]
    exact (hadds.has a hhas).imp_left ih

/-- There is no conflict exactly if no argument listed excludes another. -/
theorem conflict?_eq_none_iff :
    g.conflict? = none ↔ ∀ a ∈ g.arguments, ∀ b ∈ g.arguments, a.conflicts b = false := by
  rw [conflict?, List.findSome?_eq_none_iff]
  refine forall₂_congr fun a _ => ?_
  split
  · rename_i hnone
    simpa using List.filter_eq_nil_iff.mp hnone
  · rename_i hsome
    obtain ⟨b, hb⟩ := List.exists_mem_of_ne_nil _ hsome
    obtain ⟨hlisted, hconflicts⟩ := List.mem_filter.mp hb
    refine ⟨fun hnone => (by cases hnone), fun hall => ?_⟩
    rw [hall b hlisted] at hconflicts
    cases hconflicts

end Given

/-- What comes to a result has come to one in its first part. -/
theorem exists_of_bind_ok {α β : Type} {x : Except Detour α} {f : α → Except Detour β} {b : β}
    (hrun : x >>= f = .ok b) : ∃ a, x = .ok a ∧ f a = .ok b := by
  cases x with
  | error detour => cases hrun
  | ok a => exact ⟨a, rfl, hrun⟩

/-- A part of the reading of a command line by which arguments are taken and nothing else is
given. -/
def Reads (read : Reading → Except Detour Reading) : Prop :=
  ∀ r r', r.given.Taken → read r = .ok r' → r'.given.Taken

namespace Reads

/-- One part comes after the other. -/
theorem chain {first rest : Reading → Except Detour Reading} (hfirst : Reads first)
    (hrest : Reads rest) : Reads fun r => first r >>= rest := by
  intro r r' htaken hrun
  obtain ⟨m, hread, hend⟩ := exists_of_bind_ok hrun
  exact hrest m r' (hfirst r m htaken hread) hend

/-- Nothing is read. -/
theorem nothing : Reads .ok := by
  intro r r' htaken hrun
  cases hrun
  exact htaken

/-- A change of what is still to come gives nothing. -/
theorem expect {read : Reading → Except Detour Reading} (hread : Reads read)
    (change : Reading → Reading) (hchange : ∀ r, (change r).given = r.given) :
    Reads fun r => do return change (← read r) := by
  refine hread.chain fun r r' htaken hrun => ?_
  cases hrun
  rwa [hchange]

/-- What an argument gives is added to what was given before. -/
theorem place (a : Argument) (value : Option String) (set : Reading → Given → Reading)
    (hset : ∀ r g, (set r g).given = g) :
    Reads fun r => do return set r (← r.given.take a value) := by
  intro r r' htaken hrun
  obtain ⟨g, htake, hend⟩ := exists_of_bind_ok hrun
  cases hend
  rw [hset]
  exact .more a value htaken htake

/-- The pending argument is taken. -/
theorem settle : Reads Reading.settle := by
  intro r r' htaken hrun
  unfold Reading.settle at hrun
  rcases hpending : r.pending with _ | ⟨a, value⟩ <;> rw [hpending] at hrun
  · exact nothing r r' htaken hrun
  · exact place a value (fun r g => { r with given := g, pending := none }) (fun _ _ => rfl) r r'
      htaken hrun

/-- An argument is taken at once. -/
theorem take (a : Argument) (value : Option String) : Reads (Reading.take · a value) :=
  settle.chain (place a value (fun r g => { r with given := g }) fun _ _ => rfl)

/-- An argument is left pending. -/
theorem await (a : Argument) (value : Option String) : Reads (Reading.await · a value) :=
  settle.expect (fun r => { r with pending := some (a, value) }) fun _ => rfl

/-- A name is read. -/
theorem readName (name : String) (value : Option String) :
    Reads (Reading.readName · name value) := by
  intro r r' htaken hrun
  unfold Reading.readName at hrun
  split at hrun
  · cases hrun
  · split at hrun
    · cases hrun
    · exact take _ none r r' htaken hrun
    · exact take _ _ r r' htaken hrun
    · exact await _ none r r' htaken hrun

/-- Letters are read. -/
theorem readLetters (letters : List Char) : Reads (Reading.readLetters letters) := by
  induction letters with
  | nil => exact nothing
  | cons c cs ih =>
    intro r r' htaken hrun
    unfold Reading.readLetters at hrun
    split at hrun
    · cases hrun
    · exact (take _ none).chain ih r r' htaken hrun

/-- A positional argument is read. -/
theorem readPositional (text : String) : Reads (Reading.readPositional · text) := by
  intro r r' htaken (hrun : r.readPositional text = .ok r')
  unfold Reading.readPositional at hrun
  split at hrun
  · cases hrun
  · rename_i a rest _
    exact (await a (some text)).expect (fun r => { r with expected := rest }) (fun _ => rfl) r r'
      htaken hrun

/-- A text without a name is read. -/
theorem readPlain (text : String) : Reads (Reading.readPlain · text) := by
  intro r r' htaken (hrun : r.readPlain text = .ok r')
  unfold Reading.readPlain at hrun
  split at hrun
  · cases hrun
    exact htaken
  · exact readPositional text r r' htaken hrun

/-- The texts after an escape are read. -/
theorem readEscaped (texts : List String) : Reads (Reading.readEscaped texts) := by
  induction texts with
  | nil => exact nothing
  | cons text rest ih => exact (readPositional text).chain ih

/-- All texts are read. -/
theorem readAll (texts : List String) : Reads (Reading.readAll texts) := by
  induction texts with
  | nil => exact nothing
  | cons text rest ih =>
    intro r r' htaken hrun
    unfold Reading.readAll at hrun
    split at hrun
    · exact readEscaped rest r r' htaken hrun
    · exact (readName _ _).chain ih r r' htaken hrun
    · exact (readLetters _).chain ih r r' htaken hrun
    · exact (readPlain _).chain ih r r' htaken hrun

end Reads

namespace Given

variable {g : Given} {c : Command}

/-- A command line gives what its arguments give, taken one after the other. -/
theorem taken_of_texts {texts : List String} (hgiven : ofTexts texts = .ok g) : g.Taken := by
  obtain ⟨m, hread, hrest⟩ := exists_of_bind_ok hgiven
  obtain ⟨r, hsettle, hend⟩ := exists_of_bind_ok hrest
  cases hend
  exact Reads.settle m r (Reads.readAll texts {} m .nothing hread) hsettle

/-- Of two things of which one excludes the other, a command line that is accepted gives at most
one. -/
theorem compatible_of_command (htaken : g.Taken) (hcommand : g.command = .ok c) {a b : Argument}
    (ha : g.has a = true) (hb : g.has b = true) : a.conflicts b = false := by
  obtain ⟨hnone, -⟩ := command_eq_ok_iff.mp hcommand
  exact conflict?_eq_none_iff.mp hnone a (htaken.listed ha) b (htaken.listed hb)

/-- An accepted command line asks to hold a port for the time that it gives, if it gives one. -/
theorem seconds?_task (htaken : g.Taken) (hcommand : g.command = .ok c) :
    c.task.seconds? = g.keep := by
  rw [(of_command hcommand).1, task]
  rcases hkeep : g.keep with _ | seconds
  · rcases g.port with _ | port <;> rcases g.range with _ | range <;> rfl
  · have hrange : g.range = none := by
      by_contra hsome
      have hconflicts := compatible_of_command htaken hcommand (a := .keep) (b := .range)
        (by simp [has, hkeep]) (by simpa [has, Option.isSome_iff_ne_none] using hsome)
      cases hconflicts
    rw [hrange]
    rcases g.port with _ | port <;> rfl

end Given

end PortWarden.CommandLine
