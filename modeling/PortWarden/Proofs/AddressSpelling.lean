import PortWarden.Proofs.Literals
import PortWarden.Proofs.Spelling

/-!
# The texts that spell addresses

An IPv4 address has one text, that in which it is written. An IPv6 address has many: leading zeros
and capital digits do no harm, a double colon may stand for any number of zero groups but none, and
the last two groups may be spelled as an IPv4 address. What is read is exactly what is spelled.
-/

namespace PortWarden

open PortWarden.Text

/-- A character with which addresses are spelled: a hexadecimal digit, a colon or a point. -/
def IsAddressChar (c : Char) : Prop := (digit? 16 c).isSome = true ∨ c = ':' ∨ c = '.'

namespace IPv4

/-- An octet is read from its numeral only. -/
theorem readOctet?_eq_some_iff {cs : List Char} {octet : UInt8} :
    readOctet? cs = some octet ↔ cs = decimal octet.toNat := by
  constructor
  · intro hread
    unfold readOctet? at hread
    split at hread
    · rename_i hshape
      have hnumber : readUnsigned 10 255 cs = .ok octet.toNat :=
        (map_ofNat_eq_ok_iff (fun _ hn => UInt8.toNat_ofNat_of_lt' (Nat.lt_succ_of_le hn))
          (fun n => n.ofNat_toNat) fun _ hn => ((readUnsigned_eq_ok_iff (by decide)).mp hn).2).mp
          (toOption_eq_some_iff.mp hread)
      obtain ⟨hnumeral, -⟩ := (readUnsigned_eq_ok_iff (by decide)).mp hnumber
      exact (numeral_ten_iff.mp hnumeral).eq_decimal hshape.2
    · cases hread
  · rintro rfl
    exact readOctet?_decimal octet

/-- An IPv4 address is read from its text only. -/
theorem read?_eq_some_iff {cs : List Char} {a : IPv4} : read? cs = some a ↔ cs = a.chars := by
  constructor
  · intro hread
    have hjoin : ['.'].intercalate (cs.splitOn '.') = cs := List.intercalate_splitOn '.'
    unfold read? at hread
    split at hread
    · rename_i first second third fourth hparts
      obtain ⟨a₁, hfirst, hread⟩ := Option.bind_eq_some_iff.mp hread
      obtain ⟨a₂, hsecond, hread⟩ := Option.bind_eq_some_iff.mp hread
      obtain ⟨a₃, hthird, hread⟩ := Option.bind_eq_some_iff.mp hread
      obtain ⟨a₄, hfourth, ⟨⟩⟩ := Option.bind_eq_some_iff.mp hread
      rw [← hjoin, hparts, readOctet?_eq_some_iff.mp hfirst, readOctet?_eq_some_iff.mp hsecond,
        readOctet?_eq_some_iff.mp hthird, readOctet?_eq_some_iff.mp hfourth]
      simp [chars, List.intercalate]
    · cases hread
  · rintro rfl
    exact read?_chars a

/-- The text of an IPv4 address consists of digits and points. -/
theorem isAddressChar_of_mem_chars {a : IPv4} : ∀ c ∈ a.chars, IsAddressChar c := by
  intro c hc
  obtain ⟨d, hd, rfl⟩ | rfl := digit_or_point_of_mem_chars hc
  · rw [IsAddressChar, digit?_digitChar (Nat.le_refl 16) hd]
    exact .inl rfl
  · exact .inr (.inr rfl)

end IPv4

namespace IPv6

/-- A text that spells a group: up to four hexadecimal digits, of which the first may be zeros. -/
def GroupSpelledBy (g : UInt16) (cs : List Char) : Prop := cs.length ≤ 4 ∧ Numeral 16 cs g.toNat

/-- Texts that spell groups, with colons between them. Where `dotted` allows it, the last two may be
spelled as an IPv4 address. -/
inductive GroupsSpelledBy (dotted : Bool) : List UInt16 → List Char → Prop where
  /-- No text is no group. -/
  | nil : GroupsSpelledBy dotted [] []
  /-- One group. -/
  | group {g : UInt16} {cs : List Char} (hg : GroupSpelledBy g cs) : GroupsSpelledBy dotted [g] cs
  /-- An IPv4 address. -/
  | address (hdotted : dotted = true) (a : IPv4) :
      GroupsSpelledBy dotted (groupsOfIPv4 a) a.chars
  /-- A group before others. -/
  | cons {g : UInt16} {gs : List UInt16} {cs rest : List Char} (hg : GroupSpelledBy g cs)
      (hne : gs ≠ []) (hrest : GroupsSpelledBy dotted gs rest) :
      GroupsSpelledBy dotted (g :: gs) (cs ++ ':' :: rest)

/-- Texts that spell an IPv6 address. -/
inductive SpelledBy (a : IPv6) : List Char → Prop where
  /-- All groups are spelled. -/
  | full {cs : List Char} (hgroups : GroupsSpelledBy true a.groups.toList cs) : SpelledBy a cs
  /-- A double colon stands for zero groups, of which there has to be one at least. -/
  | gap {before after : List Char} {front back : List UInt16} {n : Nat} (hn : 0 < n)
      (hfront : GroupsSpelledBy false front before) (hback : GroupsSpelledBy true back after)
      (hgroups : front ++ (List.replicate n 0 ++ back) = a.groups.toList) :
      SpelledBy a (before ++ ':' :: ':' :: after)

variable {dotted : Bool} {g : UInt16} {gs : List UInt16} {cs : List Char}

/-- A group is read from the texts that spell it. -/
theorem readGroup?_eq_some_iff : readGroup? cs = some g ↔ GroupSpelledBy g cs := by
  have hnumber : (readUnsigned 16 maxUInt16 cs).map UInt16.ofNat = .ok g ↔
      readUnsigned 16 maxUInt16 cs = .ok g.toNat :=
    map_ofNat_eq_ok_iff (fun _ hn => UInt16.toNat_ofNat_of_lt' (Nat.lt_succ_of_le hn))
      (fun n => n.ofNat_toNat) fun _ hn => ((readUnsigned_eq_ok_iff (by decide)).mp hn).2
  have hle : g.toNat ≤ maxUInt16 := Nat.le_of_lt_succ g.toNat_lt
  unfold readGroup? GroupSpelledBy
  split
  · rename_i hlength
    rw [toOption_eq_some_iff, hnumber, readUnsigned_eq_ok_iff (by decide), and_iff_left hle]
    exact (and_iff_right hlength).symm
  · rename_i hlength
    exact ⟨fun h => (by cases h), fun h => absurd h.1 hlength⟩

/-- A hexadecimal digit is neither a colon nor a blank. -/
theorem plain_of_isSome_digit? {c : Char} (hc : (digit? 16 c).isSome = true) :
    c ≠ ':' ∧ isBlank c = false := by
  have hrange : 48 ≤ c.toNat ∧ c.toNat ≤ 57 ∨ 97 ≤ c.toNat ∧ c.toNat ≤ 102 ∨
      65 ≤ c.toNat ∧ c.toNat ≤ 70 := by
    have hle (first last : Char) :
        (first ≤ c && c ≤ last) = true ↔ first.toNat ≤ c.toNat ∧ c.toNat ≤ last.toNat := by
      rw [Bool.and_eq_true, decide_eq_true_eq, decide_eq_true_eq]
      rfl
    simp only [digit?, hle, Char.reduceToNat] at hc
    by_contra hnot
    simp only [not_or] at hnot
    rw [if_neg hnot.1, if_neg hnot.2.1, if_neg hnot.2.2] at hc
    cases hc
  constructor
  · rintro rfl
    revert hrange
    decide
  · simp only [isBlank, Bool.or_eq_false_iff, Bool.and_eq_false_iff, decide_eq_false_iff_not,
      beq_eq_false_iff_ne]
    omega

/-- The text of a group holds no colon. -/
theorem GroupSpelledBy.colon_not_mem (hg : GroupSpelledBy g cs) : ':' ∉ cs :=
  fun hmem => (plain_of_isSome_digit? (hg.2.digits _ hmem)).1 rfl

/-- An IPv4 address is too long for a group. -/
theorem readGroup?_chars (a : IPv4) : readGroup? a.chars = none := by
  have hlength := a.seven_le_length_chars
  rw [readGroup?, if_neg (by omega)]

/-- The text of one group or more does not start with a colon. -/
theorem GroupsSpelledBy.exists_eq_cons (hgs : GroupsSpelledBy dotted gs cs) (hne : gs ≠ []) :
    ∃ c rest, cs = c :: rest ∧ c ≠ ':' := by
  have hstart {cs : List Char} (hcs : cs ≠ []) (hcolon : ':' ∉ cs) (more : List Char) :
      ∃ c rest, cs ++ more = c :: rest ∧ c ≠ ':' := by
    obtain ⟨c, rest, rfl⟩ := List.exists_cons_of_ne_nil hcs
    exact ⟨c, rest ++ more, rfl, fun h => hcolon (h ▸ List.mem_cons_self)⟩
  cases hgs with
  | nil => exact absurd rfl hne
  | group hg => simpa using hstart hg.2.ne_nil hg.colon_not_mem []
  | address _ a =>
    have hlength := a.seven_le_length_chars
    have hnil : a.chars ≠ [] := List.ne_nil_of_length_pos (by omega)
    simpa using hstart hnil a.colon_not_mem_chars []
  | cons hg => exact hstart hg.2.ne_nil hg.colon_not_mem _

/-- What is read of parts is spelled by the parts with colons between them. -/
theorem groupsSpelledBy_of_readParts? {parts : List (List Char)}
    (hread : readParts? dotted parts = some gs) :
    GroupsSpelledBy dotted gs ([':'].intercalate parts) ∧ (parts ≠ [] → gs ≠ []) := by
  induction parts generalizing gs with
  | nil =>
    cases hread
    exact ⟨.nil, fun h => absurd rfl h⟩
  | cons part parts ih =>
    cases parts with
    | nil =>
      have hpart : [':'].intercalate [part] = part := by simp [List.intercalate]
      rw [hpart]
      rw [readParts?] at hread
      split at hread
      · rename_i g hg
        cases hread
        exact ⟨.group (readGroup?_eq_some_iff.mp hg), fun _ => List.cons_ne_nil _ _⟩
      · split at hread
        · obtain ⟨a, ha, rfl⟩ := Option.map_eq_some_iff.mp hread
          obtain rfl := IPv4.read?_eq_some_iff.mp ha
          exact ⟨.address ‹_› a, fun _ => List.cons_ne_nil _ _⟩
        · cases hread
    | cons next parts =>
      rw [readParts?] at hread
      · obtain ⟨g, hg, hread⟩ := Option.bind_eq_some_iff.mp hread
        obtain ⟨rest, hrest, ⟨⟩⟩ := Option.bind_eq_some_iff.mp hread
        obtain ⟨hspelled, hne⟩ := ih hrest
        have hjoin : [':'].intercalate (part :: next :: parts) =
            part ++ ':' :: [':'].intercalate (next :: parts) := by
          simp [List.intercalate]
        rw [hjoin]
        exact ⟨.cons (readGroup?_eq_some_iff.mp hg) (hne (List.cons_ne_nil _ _)) hspelled,
          fun _ => List.cons_ne_nil _ _⟩
      · simp

/-- One group or more are read from the parts of a text that spells them. -/
theorem GroupsSpelledBy.readParts?_splitOn (hgs : GroupsSpelledBy dotted gs cs) (hne : gs ≠ []) :
    readParts? dotted (cs.splitOn ':') = some gs := by
  induction hgs with
  | nil => exact absurd rfl hne
  | group hg =>
    rw [List.splitOn_eq_singleton hg.colon_not_mem]
    simp [readParts?, readGroup?_eq_some_iff.mpr hg]
  | address hdotted a =>
    rw [List.splitOn_eq_singleton a.colon_not_mem_chars]
    simp [readParts?, readGroup?_chars, hdotted, IPv4.read?_chars]
  | @cons g gs cs rest hg hmore _ ih =>
    have hparts := ih hmore
    rw [List.splitOn_append_cons_self_of_not_mem hg.colon_not_mem]
    obtain ⟨part, parts, hsplit⟩ := List.exists_cons_of_ne_nil (List.splitOn_ne_nil ':' rest)
    rw [hsplit] at hparts ⊢
    rw [readParts?, readGroup?_eq_some_iff.mpr hg, hparts]
    · rfl
    · simp

/-- Groups are read from the texts that spell them. -/
theorem readGroups?_eq_some_iff :
    readGroups? dotted cs = some gs ↔ GroupsSpelledBy dotted gs cs := by
  constructor
  · intro hread
    rw [readGroups?] at hread
    split at hread
    · rename_i hempty
      cases hread
      obtain rfl := List.isEmpty_iff.mp hempty
      exact .nil
    · have hspelled := (groupsSpelledBy_of_readParts? hread).1
      rwa [List.intercalate_splitOn] at hspelled
  · intro hgs
    by_cases hne : gs = []
    · subst hne
      cases hgs
      rfl
    · obtain ⟨c, rest, hcs, -⟩ := hgs.exists_eq_cons hne
      rw [readGroups?, hgs.readParts?_splitOn hne, hcs]
      rfl

/-- Groups are passed over in the search for a double colon. -/
theorem GroupsSpelledBy.splitAtGap?_append (hgs : GroupsSpelledBy dotted gs cs)
    (rest : List Char) :
    splitAtGap? (cs ++ rest) =
      (splitAtGap? rest).map fun (before, after) => (cs ++ before, after) := by
  induction hgs with
  | nil => simp
  | group hg => exact IPv6.splitAtGap?_append hg.colon_not_mem rest
  | address _ a => exact IPv6.splitAtGap?_append a.colon_not_mem_chars rest
  | @cons g gs cs more hg hne hmore ih =>
    have hcolon : splitAtGap? (':' :: (more ++ rest)) =
        (splitAtGap? (more ++ rest)).map fun (before, after) => (':' :: before, after) := by
      obtain ⟨c, chars, rfl, hc⟩ := hmore.exists_eq_cons hne
      exact splitAtGap?_colon hc _
    simp only [List.append_assoc, List.cons_append]
    rw [IPv6.splitAtGap?_append hg.colon_not_mem, hcolon, ih, Option.map_map, Option.map_map]
    simp [Function.comp_def]

/-- A text is split at a double colon that it holds. -/
theorem eq_of_splitAtGap? {before after : List Char}
    (hsplit : splitAtGap? cs = some (before, after)) : cs = before ++ ':' :: ':' :: after := by
  induction cs using splitAtGap?.induct generalizing before with
  | case1 cs =>
    rw [splitAtGap?] at hsplit
    cases hsplit
    rfl
  | case2 c cs hgap ih =>
    rw [splitAtGap?] at hsplit
    · obtain ⟨⟨front, rest⟩, hrest, ⟨⟩⟩ := Option.map_eq_some_iff.mp hsplit
      rw [ih hrest]
      rfl
    · exact hgap
  | case3 => cases hsplit

/-- The groups of an address are those that it is made of. -/
theorem ofGroups?_eq_some_iff {a : IPv6} : ofGroups? gs = some a ↔ a.groups.toList = gs := by
  constructor
  · intro hmade
    unfold ofGroups? at hmade
    split at hmade
    · cases hmade
      rfl
    · cases hmade
  · rintro rfl
    exact ofGroups?_toList a

/-- An IPv6 address is read from the texts that spell it. -/
theorem read?_eq_some_iff {a : IPv6} : read? cs = some a ↔ a.SpelledBy cs := by
  constructor
  · intro hread
    unfold read? at hread
    split at hread
    · obtain ⟨gs, hgs, hmade⟩ := Option.bind_eq_some_iff.mp hread
      obtain rfl := ofGroups?_eq_some_iff.mp hmade
      exact .full (readGroups?_eq_some_iff.mp hgs)
    · rename_i before after hsplit
      obtain ⟨front, hfront, hread⟩ := Option.bind_eq_some_iff.mp hread
      obtain ⟨back, hback, hread⟩ := Option.bind_eq_some_iff.mp hread
      rw [eq_of_splitAtGap? hsplit]
      dsimp only at hread
      split at hread
      · cases hread
      · rename_i hmissing
        rw [ofGroups?_eq_some_iff, List.append_assoc] at hread
        exact .gap (Nat.pos_of_ne_zero hmissing) (readGroups?_eq_some_iff.mp hfront)
          (readGroups?_eq_some_iff.mp hback) hread.symm
  · intro hspelled
    cases hspelled with
    | full hgroups =>
      have hsplit : splitAtGap? cs = none := by
        simpa [splitAtGap?] using hgroups.splitAtGap?_append []
      simp only [read?, hsplit, readGroups?_eq_some_iff.mpr hgroups]
      exact ofGroups?_toList a
    | @gap before after front back n hn hfront hback hgroups =>
      have hsplit := hfront.splitAtGap?_append (':' :: ':' :: after)
      simp only [splitAtGap?, Option.map_some, List.append_nil] at hsplit
      exact read?_of_gap (readGroups?_eq_some_iff.mpr hfront) (readGroups?_eq_some_iff.mpr hback)
        hn hgroups hsplit

/-- The text of three groups or more holds a colon. -/
theorem GroupsSpelledBy.colon_mem (hgs : GroupsSpelledBy dotted gs cs) (hlength : 2 < gs.length) :
    ':' ∈ cs := by
  cases hgs with
  | nil => cases hlength
  | group => simp at hlength
  | address _ a => exact absurd hlength (Nat.lt_irrefl 2)
  | cons => simp

/-- Every text of an IPv6 address holds a colon. -/
theorem SpelledBy.colon_mem {a : IPv6} (hcs : a.SpelledBy cs) : ':' ∈ cs := by
  cases hcs with
  | full hgroups => exact hgroups.colon_mem (by simp)
  | gap => simp

/-- The text of groups consists of digits, colons and points. -/
theorem GroupsSpelledBy.isAddressChar (hgs : GroupsSpelledBy dotted gs cs) :
    ∀ c ∈ cs, IsAddressChar c := by
  induction hgs with
  | nil => exact fun _ hc => absurd hc List.not_mem_nil
  | group hg => exact fun c hc => .inl (hg.2.digits c hc)
  | address => exact IPv4.isAddressChar_of_mem_chars
  | cons hg _ _ ih =>
    exact List.forall_mem_append.mpr ⟨fun c hc => .inl (hg.2.digits c hc),
      List.forall_mem_cons.mpr ⟨.inr (.inl rfl), ih⟩⟩

/-- Every text of an IPv6 address consists of digits, colons and points. -/
theorem SpelledBy.isAddressChar {a : IPv6} (hcs : a.SpelledBy cs) : ∀ c ∈ cs, IsAddressChar c := by
  cases hcs with
  | full hgroups => exact hgroups.isAddressChar
  | gap _ hfront hback =>
    exact List.forall_mem_append.mpr ⟨hfront.isAddressChar,
      List.forall_mem_cons.mpr ⟨.inr (.inl rfl),
        List.forall_mem_cons.mpr ⟨.inr (.inl rfl), hback.isAddressChar⟩⟩⟩

end IPv6

namespace Address

/-- Texts that spell an address. -/
def SpelledBy : Address → List Char → Prop
  | v4 a, cs => cs = a.chars
  | v6 a, cs => a.SpelledBy cs

variable {a : Address} {cs : List Char}

/-- An address is read from the texts that spell it. -/
theorem read?_eq_some_iff : read? cs = some a ↔ a.SpelledBy cs := by
  cases a with
  | v4 a =>
    rw [SpelledBy, ← IPv4.read?_eq_some_iff, read?]
    rcases IPv4.read? cs with _ | b <;> simp
  | v6 a =>
    rw [SpelledBy, read?]
    constructor
    · intro hread
      rcases hv4 : IPv4.read? cs with _ | b <;> rw [hv4] at hread
      · obtain ⟨b, hb, ⟨⟩⟩ := Option.map_eq_some_iff.mp hread
        exact IPv6.read?_eq_some_iff.mp hb
      · cases hread
    · intro hcs
      -- only texts of IPv6 addresses hold colons
      have hv4 : IPv4.read? cs = none := Option.eq_none_iff_forall_ne_some.mpr fun b hb => by
        obtain rfl := IPv4.read?_eq_some_iff.mp hb
        exact b.colon_not_mem_chars hcs.colon_mem
      rw [hv4, IPv6.read?_eq_some_iff.mpr hcs]
      rfl

/-- An address is spelled by the text in which it is written. -/
theorem spelledBy_chars (a : Address) : a.SpelledBy a.chars := read?_eq_some_iff.mp a.read?_chars

/-- Every text of an address consists of digits, colons and points. -/
theorem SpelledBy.isAddressChar (hcs : a.SpelledBy cs) : ∀ c ∈ cs, IsAddressChar c := by
  cases a with
  | v4 a =>
    obtain rfl := hcs
    exact IPv4.isAddressChar_of_mem_chars
  | v6 a => exact IPv6.SpelledBy.isAddressChar hcs

/-- No text of an address holds a blank. -/
theorem SpelledBy.blankless (hcs : a.SpelledBy cs) : Blankless cs := by
  intro c hc
  obtain hdigit | rfl | rfl := hcs.isAddressChar c hc
  · exact (IPv6.plain_of_isSome_digit? hdigit).2
  · rfl
  · rfl

/-- What is left of a text without the blanks around it is read as an address exactly if the text
spells that address with blanks around it. -/
theorem read?_trim_eq_some_iff : read? (trim cs) = some a ↔
    ∃ core, a.SpelledBy core ∧ Padded core cs := by
  rw [read?_eq_some_iff]
  exact trim_iff fun core hcore => hcore.blankless

end Address

end PortWarden
