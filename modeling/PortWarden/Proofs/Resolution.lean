import PortWarden.Host.Resolve
import PortWarden.Proofs.AddressSpelling

/-!
# What texts resolve to

A text that spells an address resolves to that address, whatever the resolver knows of it, since it
is not asked. Every other text is a name, and the resolver is asked for it once. Of its answer the
first address of a family that is used here counts.
-/

namespace PortWarden

open PortWarden.Text

/-- What an answer of the resolver for a name comes to. -/
inductive Lookup.Gives (name : String) : Lookup → Except Failure Address → Prop where
  /-- The first address counts, behind entries of other families. -/
  | first {others : List (Option Address)} (hothers : ∀ entry ∈ others, entry = none) (a : Address)
      (rest : List (Option Address)) : Gives name (.ok (others ++ some a :: rest)) (.ok a)
  /-- Entries of other families make no address. -/
  | noAddress {others : List (Option Address)} (hothers : ∀ entry ∈ others, entry = none) :
      Gives name (.ok others) (.error (.resolution (.noAddress name)))
  /-- The resolver fails. -/
  | fault (fault : LookupFault) :
      Gives name (.error fault) (.error (.resolution (.lookup name fault)))

/-- The address of an answer is what the answer comes to. -/
theorem Lookup.address_eq_iff {name : String} {answer : Lookup} {result : Except Failure Address} :
    Lookup.address name answer = result ↔ Lookup.Gives name answer result := by
  constructor
  · rintro rfl
    rcases answer with fault | found
    · exact .fault fault
    · rw [address]
      split
      · rename_i hfound
        exact .noAddress (List.filterMap_eq_nil_iff.mp hfound)
      · rename_i a more hfound
        obtain ⟨others, entry, rest, rfl, hothers, hentry, -⟩ :=
          List.filterMap_eq_cons_iff.mp hfound
        obtain rfl : entry = some a := hentry
        exact .first hothers a rest
  · have hskip {others : List (Option Address)} (hothers : ∀ entry ∈ others, entry = none) :
        others.filterMap id = [] :=
      List.filterMap_eq_nil_iff.mpr hothers
    rintro (@⟨others, hothers, a, rest⟩ | ⟨hothers⟩ | fault)
    · have hfound : (others ++ some a :: rest).filterMap id = a :: rest.filterMap id := by
        rw [List.filterMap_append, hskip hothers]
        rfl
      simp only [address, hfound]
    · simp only [address, hskip hothers]
    · rfl

/-- The name in a text with blanks around it. -/
def nameIn (text : String) : String := String.ofList (trim text.toList)

/-- A text that consists of an address in one of its spellings and of blanks around it. -/
def Spells (text : String) (a : Address) : Prop :=
  ∃ core, a.SpelledBy core ∧ Padded core text.toList

/-- What a text resolves to where `ask` answers for names. -/
inductive ResolvesTo (ask : String → Lookup) (text : String) : Except Failure Address → Prop where
  /-- An address resolves to itself. -/
  | spelled {a : Address} (ha : Spells text a) : ResolvesTo ask text (.ok a)
  /-- A name with a NUL character is none that can be asked for. -/
  | nul (hnone : ∀ a, ¬Spells text a) (hnul : '\x00' ∈ text.toList) :
      ResolvesTo ask text (.error (.resolution (.nulCharacter (nameIn text))))
  /-- The answer for a name decides. -/
  | named {result : Except Failure Address} (hnone : ∀ a, ¬Spells text a)
      (hnul : '\x00' ∉ text.toList)
      (hgives : Lookup.Gives (nameIn text) (ask (nameIn text)) result) : ResolvesTo ask text result

/-- The names that are asked for to resolve a text. -/
inductive AsksFor (text : String) : List String → Prop where
  /-- Nothing is asked for an address or for a text with a NUL character. -/
  | nothing (hknown : (∃ a, Spells text a) ∨ '\x00' ∈ text.toList) : AsksFor text []
  /-- Otherwise it is the name in the text. -/
  | name (hnone : ∀ a, ¬Spells text a) (hnul : '\x00' ∉ text.toList) : AsksFor text [nameIn text]

namespace Host

/-- A host after its resolver was asked for some names. -/
def afterAsking (h : Host) (names : List String) : Host :=
  { h with trace := (names.map fun name => ⟨none, .resolve name, none⟩).reverse ++ h.trace }

/-- The calls are those for the names, in order. -/
theorem calls_afterAsking (h : Host) (names : List String) :
    (h.afterAsking names).calls =
      h.calls ++ names.map fun name => ⟨none, .resolve name, none⟩ := by
  simp [afterAsking, calls]

variable {text : String} {h : Host}

/-- What the resolver of a host answers. -/
def answer (h : Host) (name : String) : Lookup := (h.lookup name).1

/-- A text resolves to the address that it spells. -/
theorem resolve_of_spells {a : Address} (ha : Spells text a) : resolve text h = (.ok a, h) := by
  simp only [resolve, Address.read?_trim_eq_some_iff.mpr ha]

/-- A text that spells no address is left to the resolver, unless it holds a NUL character. -/
theorem resolve_of_not_spells (hnone : ∀ a, ¬Spells text a) :
    resolve text h = if '\x00' ∈ text.toList then
        (.error (.resolution (.nulCharacter (nameIn text))), h)
      else (Lookup.address (nameIn text) (h.answer (nameIn text)),
        h.afterAsking [nameIn text]) := by
  have hread : Address.read? (trim text.toList) = none :=
    Option.eq_none_iff_forall_ne_some.mpr fun a ha =>
      hnone a (Address.read?_trim_eq_some_iff.mp ha)
  have hnul : '\x00' ∈ trim text.toList ↔ '\x00' ∈ text.toList :=
    ((padded_trim text.toList).mem_iff (by decide)).symm
  simp only [resolve, hread, String.toList_ofList, List.contains_eq_mem, hnul, decide_eq_true_eq]
  rfl

/-- Resolving a text comes to what it resolves to. -/
theorem resolve_fst_eq_iff {result : Except Failure Address} :
    (resolve text h).1 = result ↔ ResolvesTo h.answer text result := by
  constructor
  · rintro rfl
    by_cases hspelled : ∃ a, Spells text a
    · obtain ⟨a, ha⟩ := hspelled
      rw [resolve_of_spells ha]
      exact .spelled ha
    · have hnone : ∀ a, ¬Spells text a := fun a ha => hspelled ⟨a, ha⟩
      rw [resolve_of_not_spells hnone]
      split
      · exact .nul hnone ‹_›
      · exact .named hnone ‹_› (Lookup.address_eq_iff.mp rfl)
  · rintro (ha | ⟨hnone, hnul⟩ | ⟨hnone, hnul, hgives⟩)
    · rw [resolve_of_spells ha]
    · rw [resolve_of_not_spells hnone, if_pos hnul]
    · rw [resolve_of_not_spells hnone, if_neg hnul]
      exact Lookup.address_eq_iff.mpr hgives

/-- Resolving a text asks for what has to be asked for, and does nothing else. -/
theorem resolve_snd (text : String) (h : Host) :
    ∃ names, AsksFor text names ∧ (resolve text h).2 = h.afterAsking names := by
  by_cases hspelled : ∃ a, Spells text a
  · obtain ⟨a, ha⟩ := hspelled
    rw [resolve_of_spells ha]
    exact ⟨[], .nothing (.inl ⟨a, ha⟩), rfl⟩
  · have hnone : ∀ a, ¬Spells text a := fun a ha => hspelled ⟨a, ha⟩
    rw [resolve_of_not_spells hnone]
    split
    · exact ⟨[], .nothing (.inr ‹_›), rfl⟩
    · exact ⟨[nameIn text], .name hnone ‹_›, rfl⟩

/-- How a text is resolved on a host. -/
structure ResolvesByText (h : Host) (text : String) : Prop where
  /-- The text in which an address is written resolves to that address, with blanks around it as
  well, and nothing is asked. -/
  written : ∀ a : Address, Padded a.chars text.toList → resolve text h = (.ok a, h)
  /-- So does every other spelling of an address. -/
  spelled : ∀ a : Address, Spells text a → resolve text h = (.ok a, h)
  /-- For every other text without a NUL character the resolver is asked once, for the name in it,
  and its answer decides. -/
  asked : (∀ a : Address, ¬Spells text a) → '\x00' ∉ text.toList →
    Lookup.Gives (nameIn text) (h.lookup (nameIn text)).1 (resolve text h).1 ∧
      (resolve text h).2 = h.afterAsking [nameIn text] ∧
      (resolve text h).2.calls = h.calls ++ [⟨none, .resolve (nameIn text), none⟩]
  /-- A text with a NUL character fails without being asked for. -/
  nul : '\x00' ∈ text.toList →
    resolve text h = (.error (.resolution (.nulCharacter (nameIn text))), h)

/-- No text that spells an address holds a NUL character. -/
theorem not_spells_of_nul (hnul : '\x00' ∈ text.toList) (a : Address) : ¬Spells text a := by
  rintro ⟨core, hcore, hpadded⟩
  have hmem : '\x00' ∈ core := (hpadded.mem_iff (by decide)).mp hnul
  exact absurd (hcore.isAddressChar _ hmem) (by unfold IsAddressChar; decide)

/-- Addresses resolve to themselves, and every other text is a name, for which the resolver is asked
once. -/
theorem addresses_resolve_to_themselves (h : Host) (text : String) : h.ResolvesByText text := by
  constructor
  case written => exact fun a ha => resolve_of_spells ⟨a.chars, a.spelledBy_chars, ha⟩
  case spelled => exact fun a ha => resolve_of_spells ha
  case asked =>
    intro hnone hnul
    rw [resolve_of_not_spells hnone, if_neg hnul]
    exact ⟨Lookup.address_eq_iff.mp rfl, rfl, h.calls_afterAsking [nameIn text]⟩
  case nul =>
    intro hnul
    rw [resolve_of_not_spells (not_spells_of_nul hnul), if_pos hnul]

/-- The text of the loopback address resolves to it, whatever the resolver knows by that name, and a
name to the first entry of its answer that is an address. -/
theorem addresses_resolve_to_themselves_on_loopback :
    let h : Host := { names := [("::1", .ok [some (.v4 ⟨9, 9, 9, 9⟩)]),
      ("printer", .ok [none, some (.v4 ⟨10, 0, 0, 9⟩), some (.v4 .loopback)])] }
    resolve "\u00a0::1\n" h = (.ok (.v6 ⟨#v[0, 0, 0, 0, 0, 0, 0, 1]⟩), h) ∧
      (resolve " printer " h).1 = .ok (.v4 ⟨10, 0, 0, 9⟩) ∧
      (resolve " printer " h).2.calls = [⟨none, .resolve "printer", none⟩] := by
  intro h
  have hplain : ¬IsAddressChar 'p' := by
    unfold IsAddressChar
    decide
  obtain ⟨hgives, -, hcalls⟩ := (addresses_resolve_to_themselves h " printer ").asked
    (fun a ⟨core, hcore, hpadded⟩ => hplain (hcore.isAddressChar 'p'
      ((hpadded.mem_iff (by decide)).mp (by decide)))) (by decide)
  refine ⟨(addresses_resolve_to_themselves h _).written _ ⟨['\u00a0'], ['\n'], by decide,
    by decide, by rfl⟩, ?_, hcalls⟩
  exact (Lookup.address_eq_iff.mpr hgives).symm

/-- A text with leading zeros is no text in which an address is written, holds no NUL character, and
still it is not asked for: it spells an address. -/
theorem resolve_other_spelling :
    let h : Host := { names := [("0001::", .ok [some (.v4 ⟨9, 9, 9, 9⟩)])] }
    (∀ a : Address, ¬Padded a.chars "0001::".toList) ∧ '\x00' ∉ "0001::".toList ∧
      (resolve "0001::" h).1 = .ok (.v6 ⟨#v[1, 0, 0, 0, 0, 0, 0, 0]⟩) ∧
      (resolve "0001::" h).2.calls = [] := by
  refine ⟨fun a hpadded => ?_, by decide, by rfl, by rfl⟩
  have htext : trim "0001::".toList = a.chars :=
    trim_of_padded hpadded a.spelledBy_chars.blankless
  have hread : Address.read? a.chars = some (.v6 ⟨#v[1, 0, 0, 0, 0, 0, 0, 0]⟩) := by
    rw [← htext]
    rfl
  rw [Address.read?_chars] at hread
  cases hread
  revert htext
  decide

end Host

end PortWarden
