import PortWarden.Proofs.Arguments

/-!
# Styling

Some arguments of a command line say only how its run is told. A command line that is accepted is
accepted without them and asks for the same then, and so it does with any of them put before what
is left.
-/

namespace PortWarden.CommandLine

/-- Whether an argument says only how a run is told. -/
def Argument.isStyling : Argument → Bool
  | json | verbose => true
  | _ => false

/-- What says only how a run is told excludes nothing. -/
theorem Argument.conflicts_of_isStyling {a b : Argument}
    (hstyling : a.isStyling = true ∨ b.isStyling = true) : a.conflicts b = false := by
  cases a <;> cases b <;> first | rfl | simp [isStyling] at hstyling

/-- What is no flag says more than how a run is told. -/
theorem Argument.isStyling_of_form {a : Argument} (hform : a.form ≠ .flag) :
    a.isStyling = false := by
  cases a <;> first | rfl | exact absurd rfl hform

/-- Whether a piece gives only arguments that say how a run is told. -/
def Piece.isStyling : Piece → Bool
  | .named name none => (Argument.ofName? name).any Argument.isStyling
  | .letters cs => cs.all fun c => (Argument.ofLetter? c).any Argument.isStyling
  | _ => false

/-- A command line without what says only how its run is told. After an escape names have no
meaning, so all is kept. -/
def withoutStyling : List String → List String
  | [] => []
  | text :: rest =>
    match Piece.ofText text with
    | .escape => text :: rest
    | piece => if piece.isStyling then withoutStyling rest else text :: withoutStyling rest

/-- How a run is told. -/
structure Styling where
  /-- How the result is written. -/
  style : Style := .text
  /-- How many times it is asked for more to be reported of the work. -/
  verbosity : Nat := 0
  deriving DecidableEq, Repr

namespace Styling

/-- The arguments that ask for a result as JSON, if it is to be that. -/
def styleArguments : Style → List Argument
  | .text => []
  | .json => [.json]

/-- The arguments that ask for a run to be told so. -/
def arguments (s : Styling) : List Argument :=
  styleArguments s.style ++ List.replicate s.verbosity .verbose

/-- The texts that ask for a result as JSON, if it is to be that. -/
def styleTexts : Style → List String
  | .text => []
  | .json => ["--json"]

/-- The texts that ask for a run to be told so. -/
def texts (s : Styling) : List String := styleTexts s.style ++ List.replicate s.verbosity "-v"

/-- All of the arguments say only how a run is told. -/
theorem isStyling_of_mem {s : Styling} {a : Argument} (ha : a ∈ s.arguments) :
    a.isStyling = true := by
  rcases List.mem_append.mp ha with hstyle | hverbose
  · cases hs : s.style <;> rw [hs] at hstyle
    · cases hstyle
    · obtain rfl := List.mem_singleton.mp hstyle
      rfl
  · obtain rfl := List.eq_of_mem_replicate hverbose
    rfl

end Styling

/-- A command whose run is told in another way. -/
def Command.styled (c : Command) (s : Styling) : Command :=
  { c with style := s.style, verbosity := s.verbosity }

namespace Given

/-- What is given where a run is to be told in another way, for which the arguments stand first. -/
def styled (g : Given) (s : Styling) : Given :=
  { g with
    json := s.style == .json
    verbosity := s.verbosity
    arguments := s.arguments ++ g.arguments.filter (!·.isStyling) }

variable {g g' : Given} {s : Styling} {a : Argument}

/-- Any other argument is listed just if it was. -/
theorem contains_styled (ha : a.isStyling = false) :
    (g.styled s).arguments.contains a = g.arguments.contains a := by
  have hnot : a ∉ s.arguments := fun hmem => by simp [Styling.isStyling_of_mem hmem] at ha
  simp [styled, hnot, ha]

/-- Any other argument is added to the list alike. -/
theorem arguments_styled (ha : a.isStyling = false) :
    (g.styled s).arguments ++ [a] =
      s.arguments ++ (g.arguments ++ [a]).filter (!·.isStyling) := by
  simp [styled, ha]

/-- A value is stored alike however the run is told. -/
theorem store_styled {α : Type} {value : String} {read : String → Except ValueFault α}
    {set set' : α → Given} (ha : a.isStyling = false)
    (hset : ∀ x, { set' x with
      arguments := s.arguments ++ (g.arguments ++ [a]).filter (!·.isStyling) } =
        Given.styled { set x with arguments := g.arguments ++ [a] } s) :
    (g.styled s).store a value read set' = (·.styled s) <$> g.store a value read set := by
  simp only [store, arguments_styled ha]
  cases read value with
  | error fault => rfl
  | ok x => exact congrArg Except.ok (hset x)

/-- The value of an argument is taken alike however the run is told. -/
theorem takeValue_styled (ha : a.isStyling = false) (value : String) :
    (g.styled s).takeValue a value = (·.styled s) <$> g.takeValue a value := by
  cases a with
  | protocol | port | address | range | keep =>
    simp only [takeValue]
    exact store_styled ha fun _ => rfl
  | config =>
    simp only [takeValue]
    split
    · rfl
    · exact store_styled ha fun _ => rfl
  | _ => rfl

/-- A flag is taken alike however the run is told. -/
theorem takeFlag_styled (ha : a.isStyling = false) :
    (g.styled s).takeFlag a = (·.styled s) <$> g.takeFlag a := by
  have hlisted := arguments_styled (g := g) (s := s) ha
  cases a with
  | membership =>
    simp only [takeFlag, hlisted]
    rfl
  | json | verbose => cases ha
  | _ => rfl

/-- An argument is taken alike however the run is told. -/
theorem take_styled (ha : a.isStyling = false) (value : Option String) :
    (g.styled s).take a value = (·.styled s) <$> g.take a value := by
  simp only [take, contains_styled ha]
  split
  · rfl
  · split
    · rfl
    · cases value with
      | some value => exact takeValue_styled ha value
      | none => exact takeFlag_styled ha

/-- A flag that says how the run is told gives nothing else. -/
theorem styled_of_take (ha : a.isStyling = true) (htake : g.take a none = .ok g') :
    g'.styled s = g.styled s := by
  unfold take at htake
  split at htake
  · cases htake
  · split at htake
    · cases htake
    · cases a with
      | json | verbose =>
        cases htake
        simp [styled, Argument.isStyling]
      | _ => cases ha

/-- What says only how a run is told conflicts with nothing. -/
theorem conflict?_styled (hnone : g.conflict? = none) : (g.styled s).conflict? = none := by
  rw [conflict?_eq_none_iff] at hnone ⊢
  intro a ha b hb
  rcases List.mem_append.mp ha with hstyling | hlisted
  · exact Argument.conflicts_of_isStyling (.inl (Styling.isStyling_of_mem hstyling))
  rcases List.mem_append.mp hb with hstyling | hlisted'
  · exact Argument.conflicts_of_isStyling (.inr (Styling.isStyling_of_mem hstyling))
  exact hnone a (List.mem_of_mem_filter hlisted) b (List.mem_of_mem_filter hlisted')

/-- The same is asked for, to be told in another way. -/
theorem command_styled {c : Command} (hcommand : g.command = .ok c) :
    (g.styled s).command = .ok (c.styled s) := by
  obtain ⟨hnone, hprotocol, hc⟩ := command_eq_ok_iff.mp hcommand
  refine command_eq_ok_iff.mpr ⟨conflict?_styled hnone, hprotocol, ?_⟩
  rw [hc]
  cases hstyle : s.style <;> simp [Command.styled, styled, task, hstyle]

end Given

namespace Reading

/-- A reading of a command line whose run is to be told in another way. -/
def styled (r : Reading) (s : Styling) : Reading := { r with given := r.given.styled s }

/-- No flag is pending or expected. -/
structure Unflagged (r : Reading) : Prop where
  /-- What is pending is no flag. -/
  pending : ∀ a value, r.pending = some (a, value) → a.form ≠ .flag
  /-- What is expected is no flag. -/
  expected : ∀ a ∈ r.expected, a.form ≠ .flag

/-- Reads the rest of a command line to its end. -/
def complete (r : Reading) (texts : List String) : Except Detour Reading :=
  readAll texts r >>= settle

/-- Whatever follows, two readings end alike. -/
def EndsAlike (r r' : Reading) : Prop := ∀ texts, r.complete texts = r'.complete texts

section

variable {r r' m : Reading} {s : Styling} {a : Argument}

/-- What has been settled has nothing pending and expects what was expected before. -/
theorem settled_of_settle (hsettle : r.settle = .ok m) :
    m.pending = none ∧ m.expected = r.expected := by
  unfold settle at hsettle
  split at hsettle
  · rename_i hpending
    cases hsettle
    exact ⟨hpending, rfl⟩
  · obtain ⟨g, -, hend⟩ := exists_of_bind_ok hsettle
    cases hend
    exact ⟨rfl, rfl⟩

/-- What has no argument pending is settled. -/
theorem settle_of_pending (hpending : m.pending = none) : m.settle = .ok m := by
  simp only [settle, hpending]

/-- What can be settled waits for no value, unless a flag is pending. -/
theorem pending_ne_of_settle (hr : r.Unflagged) (hsettle : r.settle = .ok m) (a : Argument) :
    r.pending ≠ some (a, none) := by
  intro hpending
  have hform := hr.pending a none hpending
  simp only [settle, hpending, Given.take, bne_iff_ne.mpr hform, Option.isNone_none] at hsettle
  cases hsettle

/-- A reading that can be settled may be settled before it goes on. -/
theorem endsAlike_of_settle (hr : r.Unflagged) (hsettle : r.settle = .ok m) : r.EndsAlike m := by
  obtain ⟨hpending, hexpected⟩ := settled_of_settle hsettle
  have hsame : r.settle = m.settle := hsettle.trans (settle_of_pending hpending).symm
  have hname (name : String) (value : Option String) :
      r.readName name value = m.readName name value := by
    simp only [readName, take, await, hsame]
  have hpositional (text : String) : r.readPositional text = m.readPositional text := by
    simp only [readPositional, await, hsame, hexpected]
  have hplain (text : String) : r.readPlain text = m.readPlain text := by
    unfold readPlain
    split
    · rename_i a hwaits
      exact absurd hwaits (pending_ne_of_settle hr hsettle a)
    · simp only [hpending, hpositional]
  intro texts
  -- the first text settles what is pending, whatever it is, unless it has no letters at all
  induction texts with
  | nil => exact hsame
  | cons text rest ih =>
    simp only [complete, readAll]
    cases Piece.ofText text with
    | escape =>
      cases rest with
      | nil => exact hsame
      | cons text rest => simp only [readEscaped, hpositional]
    | named name value => simp only [hname]
    | plain text => simp only [hplain]
    | letters cs =>
      cases cs with
      | nil => exact ih
      | cons c cs => simp only [readLetters, take, hsame]

end

end Reading

/-- A part of the reading of a command line that goes alike however the run is to be told, and
leaves no flag pending. -/
def Carries (s : Styling) (read : Reading → Except Detour Reading) : Prop :=
  ∀ r, r.Unflagged → read (r.styled s) = (·.styled s) <$> read r ∧
    ∀ r', read r = .ok r' → r'.Unflagged

namespace Carries

variable {s : Styling}

/-- One part comes after the other. -/
theorem chain {first rest : Reading → Except Detour Reading} (hfirst : Carries s first)
    (hrest : Carries s rest) : Carries s fun r => first r >>= rest := by
  intro r hr
  obtain ⟨hsame, hunflagged⟩ := hfirst r hr
  simp only [hsame]
  cases hread : first r with
  | error detour => exact ⟨rfl, fun _ hrun => by cases hrun⟩
  | ok m => exact hrest m (hunflagged m hread)

/-- The reading stops. -/
theorem stop (detour : Detour) : Carries s fun _ => .error detour := by
  intro r _
  exact ⟨rfl, fun _ hrun => by cases hrun⟩

/-- What is still to come changes. -/
theorem expect (change : Reading → Reading)
    (hstyled : ∀ r, change (r.styled s) = (change r).styled s)
    (hchange : ∀ r, r.Unflagged → (change r).Unflagged) : Carries s fun r => .ok (change r) := by
  intro r hr
  refine ⟨congrArg Except.ok (hstyled r), fun r' hrun => ?_⟩
  cases hrun
  exact hchange r hr

/-- Nothing is read. -/
theorem nothing : Carries s .ok :=
  expect id (fun _ => rfl) fun _ hr => hr

/-- What an argument gives is added to what was given before. -/
theorem place {a : Argument} (ha : a.isStyling = false) (value : Option String)
    (set : Reading → Given → Reading)
    (hstyled : ∀ r g, set (r.styled s) (g.styled s) = (set r g).styled s)
    (hset : ∀ r g, r.Unflagged → (set r g).Unflagged) :
    Carries s fun r => do return set r (← r.given.take a value) := by
  intro r hr
  have hgiven : (r.styled s).given = r.given.styled s := rfl
  simp only [hgiven, Given.take_styled ha]
  cases r.given.take a value with
  | error detour => exact ⟨rfl, fun _ hrun => by cases hrun⟩
  | ok g =>
    refine ⟨congrArg Except.ok (hstyled r g), fun r' hrun => ?_⟩
    cases hrun
    exact hset r g hr

/-- The pending argument is taken. -/
theorem settle : Carries s Reading.settle := by
  intro r hr
  have hpending : (r.styled s).pending = r.pending := rfl
  unfold Reading.settle
  rw [hpending]
  rcases hwaits : r.pending with _ | ⟨a, value⟩
  · exact nothing r hr
  · have ha := Argument.isStyling_of_form (hr.pending a value hwaits)
    refine place ha value (fun r g => { r with given := g, pending := none }) (fun _ _ => rfl)
      (fun m g hm => ⟨fun b value hnone => ?_, hm.expected⟩) r hr
    cases hnone

/-- An argument is taken at once. -/
theorem take {a : Argument} (ha : a.isStyling = false) (value : Option String) :
    Carries s (Reading.take · a value) :=
  settle.chain (place ha value (fun r g => { r with given := g }) (fun _ _ => rfl)
    fun _ _ hr => ⟨hr.pending, hr.expected⟩)

/-- An argument that is no flag is left pending. -/
theorem await {a : Argument} (hform : a.form ≠ .flag) (value : Option String) :
    Carries s (Reading.await · a value) := by
  refine settle.chain (expect (fun r => { r with pending := some (a, value) }) (fun _ => rfl)
    fun r hr => ⟨fun b value hpending => ?_, hr.expected⟩)
  cases hpending
  exact hform

/-- A name is read that says more than how the run is told. -/
theorem readName {name : String} {value : Option String}
    (hpiece : (Piece.named name value).isStyling = false) :
    Carries s (Reading.readName · name value) := by
  intro r hr
  simp only [Reading.readName]
  split
  · exact stop _ r hr
  · rename_i a hname
    split
    · exact stop _ r hr
    · have ha : a.isStyling = false := by simpa [Piece.isStyling, hname] using hpiece
      exact take ha none r hr
    · rename_i value hform
      exact take (Argument.isStyling_of_form hform) (some value) r hr
    · rename_i hform
      exact await hform none r hr

/-- A positional argument is read. -/
theorem readPositional (text : String) : Carries s (Reading.readPositional · text) := by
  intro r hr
  have hexpected : (r.styled s).expected = r.expected := rfl
  simp only [Reading.readPositional, hexpected]
  rcases hnext : r.expected with _ | ⟨a, rest⟩
  · exact stop _ r hr
  · have hforms := hr.expected
    rw [hnext, List.forall_mem_cons] at hforms
    exact (await hforms.1 (some text)).chain
      (expect (fun r => { r with expected := rest }) (fun _ => rfl)
        fun m hm => ⟨hm.pending, hforms.2⟩) r hr

/-- A text without a name is read. -/
theorem readPlain (text : String) : Carries s (Reading.readPlain · text) := by
  intro r hr
  have hpending : (r.styled s).pending = r.pending := rfl
  simp only [Reading.readPlain, hpending]
  split
  · rename_i a hwaits
    refine expect (fun r => { r with pending := some (a, some text) }) (fun _ => rfl)
      (fun m hm => ⟨fun b value hpending => ?_, hm.expected⟩) r hr
    cases hpending
    exact hr.pending a none hwaits
  · exact readPositional text r hr

/-- The texts after an escape are read. -/
theorem readEscaped (texts : List String) : Carries s (Reading.readEscaped texts) := by
  induction texts with
  | nil => exact nothing
  | cons text rest ih => exact (readPositional text).chain ih

end Carries

/-- A letter that is read says only how a run is told. -/
theorem Argument.isStyling_of_letter {r r' : Reading} {c : Char} {a : Argument}
    (hletter : ofLetter? c = some a) (htake : r.take a none = .ok r') : a.isStyling = true := by
  obtain ⟨m, -, hplace⟩ := exists_of_bind_ok htake
  obtain ⟨g, htaken, -⟩ := exists_of_bind_ok hplace
  unfold ofLetter? at hletter
  split at hletter <;> cases hletter
  · rfl
  all_goals
    simp only [Given.take, Given.takeFlag] at htaken
    split at htaken
    · cases htaken
    · split at htaken <;> cases htaken

namespace Reading

variable {r r' : Reading} {s : Styling}

/-- An argument that says only how a run is told does nothing but settle what is pending. -/
theorem endsAlike_of_take {a : Argument} (ha : a.isStyling = true) (hr : r.Unflagged)
    (htake : r.take a none = .ok r') :
    r'.Unflagged ∧ (r.styled s).EndsAlike (r'.styled s) := by
  obtain ⟨m, hsettle, hplace⟩ := exists_of_bind_ok htake
  obtain ⟨g, hgiven, hr'⟩ := exists_of_bind_ok hplace
  cases hr'
  obtain ⟨hcarried, hunflagged⟩ := Carries.settle (s := s) r hr
  have hm := hunflagged m hsettle
  have hsame : { m with given := g }.styled s = m.styled s := by
    simp only [styled, Given.styled_of_take ha hgiven]
  rw [hsettle] at hcarried
  rw [hsame]
  exact ⟨⟨hm.pending, hm.expected⟩, endsAlike_of_settle ⟨hr.pending, hr.expected⟩ hcarried⟩

/-- Letters that are read say only how a run is told. -/
theorem endsAlike_of_letters (cs : List Char) (hr : r.Unflagged)
    (hread : readLetters cs r = .ok r') : (Piece.letters cs).isStyling = true ∧ r'.Unflagged ∧
      (r.styled s).EndsAlike (r'.styled s) := by
  induction cs generalizing r with
  | nil =>
    cases hread
    exact ⟨rfl, hr, fun _ => rfl⟩
  | cons c cs ih =>
    unfold readLetters at hread
    split at hread
    · cases hread
    · rename_i a hletter
      obtain ⟨m, htake, hrest⟩ := exists_of_bind_ok hread
      have ha := Argument.isStyling_of_letter hletter htake
      obtain ⟨hm, hfirst⟩ := endsAlike_of_take (s := s) ha hr htake
      obtain ⟨hstyling, hr', hothers⟩ := ih hm hrest
      have hboth : (Piece.letters (c :: cs)).isStyling = true := by
        simpa [Piece.isStyling, hletter, ha] using hstyling
      exact ⟨hboth, hr', fun texts => (hfirst texts).trans (hothers texts)⟩

/-- A name that says only how a run is told is read as a flag of that sort. -/
theorem readName_eq_take {name : String} {value : Option String}
    (hpiece : (Piece.named name value).isStyling = true) : ∃ a : Argument, a.isStyling = true ∧
      ∀ r : Reading, r.readName name value = r.take a none := by
  cases value with
  | some value => cases hpiece
  | none =>
    rcases hname : Argument.ofName? name with _ | a
    · simp [Piece.isStyling, hname] at hpiece
    have ha : a.isStyling = true := by simpa [Piece.isStyling, hname] using hpiece
    refine ⟨a, ha, fun r => ?_⟩
    cases a with
    | json | verbose => simp only [readName, hname, Argument.form]
    | _ => cases ha

/-- A text that is read as part of what is asked for is read alike however the run is to be told. -/
theorem complete_part {part : Reading → Except Detour Reading} {text : String}
    {rest : List String} (hpart : Carries s part)
    (hall : ∀ r texts, readAll (text :: texts) r = part r >>= readAll texts) (hr : r.Unflagged)
    (hread : r.complete (text :: rest) = .ok r') :
    ∃ m : Reading, m.Unflagged ∧ m.complete rest = .ok r' ∧ ∀ texts,
      (r.styled s).complete (text :: texts) = (m.styled s).complete texts := by
  rw [complete, hall, bind_assoc] at hread
  obtain ⟨m, hfirst, hrest⟩ := exists_of_bind_ok hread
  obtain ⟨hcarried, hunflagged⟩ := hpart r hr
  refine ⟨m, hunflagged m hfirst, hrest, fun texts => ?_⟩
  rw [complete, hall, hcarried, hfirst]
  rfl

/-- A command line is read to its end alike without what says only how its run is told. -/
theorem complete_styled (texts : List String) (hr : r.Unflagged)
    (hread : r.complete texts = .ok r') :
    (r.styled s).complete (withoutStyling texts) = .ok (r'.styled s) := by
  induction texts generalizing r with
  | nil =>
    have hsettle : r.settle = .ok r' := hread
    obtain ⟨hcarried, -⟩ := Carries.settle (s := s) r hr
    rw [hsettle] at hcarried
    exact hcarried
  | cons text rest ih =>
    rcases hpiece : Piece.ofText text with _ | ⟨name, value⟩ | cs | plain
    · have hall (r : Reading) : r.complete (text :: rest) = readEscaped rest r >>= settle := by
        simp only [complete, readAll, hpiece]
      obtain ⟨hcarried, -⟩ := (Carries.readEscaped (s := s) rest).chain Carries.settle r hr
      rw [hall] at hread
      simp only [hread] at hcarried
      simp only [withoutStyling, hpiece, hall, hcarried]
      rfl
    · rcases hstyling : (Piece.named name value).isStyling
      · obtain ⟨m, hm, hrest, hcarried⟩ := complete_part (s := s) (Carries.readName hstyling)
          (fun r texts => by simp only [readAll, hpiece]) hr hread
        simp [withoutStyling, hpiece, hstyling, hcarried, ih hm hrest]
      · -- without the text, what is pending is settled later, which ends alike
        obtain ⟨a, ha, hname⟩ := readName_eq_take hstyling
        have hall : r.complete (text :: rest) = r.take a none >>= (complete · rest) := by
          simp only [complete, readAll, hpiece, hname, bind_assoc]
        obtain ⟨m, hfirst, hrest⟩ := exists_of_bind_ok (hall.symm.trans hread)
        obtain ⟨hm, halike⟩ := endsAlike_of_take (s := s) ha hr hfirst
        simp [withoutStyling, hpiece, hstyling, halike _, ih hm hrest]
    · have hall : r.complete (text :: rest) = readLetters cs r >>= (complete · rest) := by
        simp only [complete, readAll, hpiece, bind_assoc]
      obtain ⟨m, hfirst, hrest⟩ := exists_of_bind_ok (hall.symm.trans hread)
      obtain ⟨hstyling, hm, halike⟩ := endsAlike_of_letters (s := s) cs hr hfirst
      simp [withoutStyling, hpiece, hstyling, halike _, ih hm hrest]
    · obtain ⟨m, hm, hrest, hcarried⟩ := complete_part (s := s) (Carries.readPlain plain)
        (fun r texts => by simp only [readAll, hpiece]) hr hread
      simp [withoutStyling, hpiece, Piece.isStyling, hcarried, ih hm hrest]

/-- Each request for more to be reported is taken at once. -/
theorem readAll_verbose (g : Given) (n : Nat) (texts : List String) :
    readAll (List.replicate n "-v" ++ texts) { given := g } = readAll texts { given := { g with
      verbosity := g.verbosity + n, arguments := g.arguments ++ List.replicate n .verbose } } := by
  induction n generalizing g with
  | zero => simp
  | succ n ih =>
    have htake : Reading.take { given := g } .verbose none = .ok { given := { g with
        verbosity := g.verbosity + 1, arguments := g.arguments ++ [.verbose] } } := by
      simp [take, settle, Given.take, Given.takeFlag, Argument.form, Argument.isRepeatable]
      rfl
    have hpiece : Piece.ofText "-v" = .letters ['v'] := by decide
    rw [List.replicate_succ, List.cons_append, readAll, hpiece]
    simp only [readLetters, Argument.ofLetter?, htake, bind, Except.bind, ih]
    have hcount : g.verbosity + 1 + n = g.verbosity + (n + 1) := by omega
    simp only [hcount, List.replicate_succ, List.append_assoc, List.singleton_append]

/-- The texts that ask for a run to be told in a way are taken so. -/
theorem complete_texts (s : Styling) (texts : List String) :
    Reading.complete {} (s.texts ++ texts) = (Reading.styled {} s).complete texts := by
  have hstyle : readAll (s.texts ++ texts) {} =
      readAll (List.replicate s.verbosity "-v" ++ texts)
        { given := { json := s.style == .json, arguments := Styling.styleArguments s.style } } := by
    cases hstyle : s.style with
    | text =>
      simp only [Styling.texts, Styling.styleTexts, Styling.styleArguments, hstyle, List.nil_append]
      rfl
    | json =>
      have hpiece : Piece.ofText "--json" = .named "json" none := by decide
      have hread : Reading.readName {} "json" none = .ok
          { given := { json := true, arguments := [.json] } } := by decide
      simp only [Styling.texts, Styling.styleTexts, Styling.styleArguments, hstyle,
        List.cons_append, readAll, hpiece, hread]
      rfl
  simp only [complete, hstyle, readAll_verbose]
  simp [styled, Given.styled, Styling.arguments]

end Reading

/-- A command line that is accepted is accepted however its run is to be told, and asks for the
same. -/
theorem Command.read_styled {texts : List String} {c : Command} (hread : Command.read texts = .ok c)
    (s : Styling) : Command.read (s.texts ++ withoutStyling texts) = .ok (c.styled s) := by
  have hcomplete (texts : List String) :
      Command.read texts = Reading.complete {} texts >>= fun r => r.given.command := by
    simp only [Command.read, Reading.complete, bind_assoc]
  rw [hcomplete] at hread ⊢
  obtain ⟨r, hgiven, hcommand⟩ := exists_of_bind_ok hread
  have hnothing : Reading.Unflagged {} := ⟨fun _ _ hnone => (by cases hnone), by decide⟩
  rw [Reading.complete_texts, Reading.complete_styled texts hnothing hgiven]
  exact Given.command_styled hcommand

/-- Command lines that differ in what says only how a run is told ask for the same. -/
theorem Command.eq_styled_of_read {texts texts' : List String} {c c' : Command}
    (hread : Command.read texts = .ok c) (hread' : Command.read texts' = .ok c')
    (hsame : withoutStyling texts' = withoutStyling texts) :
    c' = c.styled ⟨c'.style, c'.verbosity⟩ := by
  have hplain := read_styled hread ⟨c'.style, c'.verbosity⟩
  have hplain' := read_styled hread' ⟨c'.style, c'.verbosity⟩
  rw [hsame, hplain] at hplain'
  exact (Except.ok.inj hplain').symm

end PortWarden.CommandLine