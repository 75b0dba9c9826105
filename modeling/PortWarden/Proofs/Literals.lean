import PortWarden.Proofs.Numerals

/-!
# Address literals

Every address reads back from its text. Numerals hold no separator, so that splitting at the
separators gives the numerals back, and the double colon of an IPv6 address is the first one, since
no group is empty. How many groups it stands for follows from their number.
-/

namespace PortWarden

open PortWarden.Text

/-- A character that is no digit in any base up to sixteen is in no numeral. -/
theorem Text.not_mem_toDigits {base n : Nat} {c : Char} (hbase : 1 < base) (hsixteen : base ≤ 16)
    (hc : ∀ d < 16, c ≠ d.digitChar) : c ∉ Nat.toDigits base n := by
  intro hmem
  obtain ⟨d, hd, rfl⟩ := exists_digit_of_mem_toDigits hbase hmem
  exact hc d (by omega) rfl

/-- No numeral holds a colon. -/
theorem Text.colon_not_mem_toDigits {base n : Nat} (hbase : 1 < base) (hsixteen : base ≤ 16) :
    ':' ∉ Nat.toDigits base n :=
  not_mem_toDigits hbase hsixteen (by decide)

/-- No numeral holds a point. -/
theorem Text.point_not_mem_toDigits {base n : Nat} (hbase : 1 < base) (hsixteen : base ≤ 16) :
    '.' ∉ Nat.toDigits base n :=
  not_mem_toDigits hbase hsixteen (by decide)

/-! ## IPv4 -/

namespace IPv4

/-- An octet reads back from its numeral. -/
theorem readOctet?_decimal (octet : UInt8) : readOctet? (decimal octet.toNat) = some octet := by
  have hlt : octet.toNat < 256 := octet.toNat_lt
  have hlength : (decimal octet.toNat).length ≤ 3 :=
    (Nat.length_toDigits_le_iff (by decide) (by decide)).mpr (by omega)
  have hzero : (decimal octet.toNat).head? = some '0' → (decimal octet.toNat).length = 1 := by
    intro hhead
    rw [decimal_eq_zero_of_head? hhead]
    rfl
  have hread : readUnsigned 10 255 (decimal octet.toNat) = .ok octet.toNat :=
    readUnsigned_toDigits (by decide) (by decide) (by omega)
  rw [readOctet?, if_pos ⟨hlength, hzero⟩, hread]
  exact congrArg some octet.ofNat_toNat

/-- The points of an IPv4 address split its text into its numerals, of which the first takes what
stands before it. -/
theorem splitOn_append_chars (a : IPv4) {before : List Char} (hbefore : '.' ∉ before) :
    (before ++ a.chars).splitOn '.' = [before ++ decimal a.first.toNat, decimal a.second.toNat,
      decimal a.third.toNat, decimal a.fourth.toNat] := by
  have hpoint (n : Nat) : '.' ∉ decimal n := point_not_mem_toDigits (by decide) (by decide)
  have hfirst : '.' ∉ before ++ decimal a.first.toNat := by simp [hbefore, hpoint]
  simp only [chars, List.append_assoc, List.cons_append]
  rw [← List.append_assoc, List.splitOn_append_cons_self_of_not_mem hfirst,
    List.splitOn_append_cons_self_of_not_mem (hpoint _),
    List.splitOn_append_cons_self_of_not_mem (hpoint _), List.splitOn_eq_singleton (hpoint _)]

/-- An IPv4 address reads back from its text. -/
theorem read?_chars (a : IPv4) : read? a.chars = some a := by
  have hsplit := a.splitOn_append_chars List.not_mem_nil
  rw [List.nil_append] at hsplit
  simp only [read?, hsplit, List.nil_append, readOctet?_decimal]
  rfl

/-- A character of the text of an IPv4 address is a digit or a point. -/
theorem digit_or_point_of_mem_chars {a : IPv4} {c : Char} (hc : c ∈ a.chars) :
    (∃ d < 16, c = d.digitChar) ∨ c = '.' := by
  have hdigit (n : Nat) (hn : c ∈ decimal n) : ∃ d < 16, c = d.digitChar := by
    obtain ⟨d, hd, rfl⟩ := exists_digit_of_mem_toDigits (by decide) hn
    exact ⟨d, by omega, rfl⟩
  simp only [chars, List.mem_append, List.mem_cons] at hc
  rcases hc with ((hc | hc | hc) | hc | hc) | hc | hc
  all_goals first | exact .inr hc | exact .inl (hdigit _ hc)

/-- The text of an IPv4 address holds no colon. -/
theorem colon_not_mem_chars (a : IPv4) : ':' ∉ a.chars := by
  intro hmem
  rcases digit_or_point_of_mem_chars hmem with ⟨d, hd, hc⟩ | hc
  · revert d
    decide
  · cases hc

/-- The text of an IPv4 address has at least seven characters. -/
theorem seven_le_length_chars (a : IPv4) : 7 ≤ a.chars.length := by
  have hpos (n : Nat) : 0 < (decimal n).length := Nat.length_toDigits_pos
  have hfirst := hpos a.first.toNat
  have hsecond := hpos a.second.toNat
  have hthird := hpos a.third.toNat
  have hfourth := hpos a.fourth.toNat
  simp only [chars, List.length_append, List.length_cons]
  omega

end IPv4

/-! ## IPv6 -/

namespace IPv6

/-- A list of groups starts with as many zeros as counted. -/
theorem replicate_leadingZeros (gs : List UInt16) :
    List.replicate (leadingZeros gs) 0 ++ gs.drop (leadingZeros gs) = gs := by
  induction gs with
  | nil => rfl
  | cons g gs ih =>
    unfold leadingZeros
    split
    · subst g
      simpa [List.replicate_succ] using ih
    · rfl

/-- Where the longest run of zero groups is said to be, all groups are zero. -/
theorem take_zeros_drop (gs : List UInt16) :
    gs.take (longestZeroRun gs).1 ++
      (List.replicate (longestZeroRun gs).2 0 ++
        gs.drop ((longestZeroRun gs).1 + (longestZeroRun gs).2)) = gs := by
  induction gs with
  | nil => rfl
  | cons g gs ih =>
    by_cases hlater : (longestZeroRun gs).2 ≤ leadingZeros (g :: gs)
    · simp only [longestZeroRun, if_pos hlater, List.take_zero, List.nil_append, Nat.zero_add]
      exact replicate_leadingZeros (g :: gs)
    · simp only [longestZeroRun, if_neg hlater, Nat.add_right_comm _ 1, List.take_succ_cons,
        List.drop_succ_cons, List.cons_append, ih]

/-- A group reads back from its numeral. -/
theorem readGroup?_hexadecimal (g : UInt16) : readGroup? (hexadecimal g.toNat) = some g := by
  have hlt : g.toNat < 65536 := g.toNat_lt
  have hlength : (hexadecimal g.toNat).length ≤ 4 :=
    (Nat.length_toDigits_le_iff (by decide) (by decide)).mpr (by omega)
  have hread : readUnsigned 16 maxUInt16 (hexadecimal g.toNat) = .ok g.toNat :=
    readUnsigned_toDigits (by decide) (by decide) (by simp only [maxUInt16]; omega)
  rw [readGroup?, if_pos hlength, hread]
  exact congrArg some g.ofNat_toNat

/-- A text without a colon is passed over in the search for a double one. -/
theorem splitAtGap?_append {text : List Char} (hcolon : ':' ∉ text) (rest : List Char) :
    splitAtGap? (text ++ rest) =
      (splitAtGap? rest).map fun (before, after) => (text ++ before, after) := by
  induction text with
  | nil => simp
  | cons c cs ih =>
    obtain ⟨hc, hcs⟩ : ':' ≠ c ∧ ':' ∉ cs := by simpa using hcolon
    have hskip : splitAtGap? (c :: (cs ++ rest)) =
        (splitAtGap? (cs ++ rest)).map fun (before, after) => (c :: before, after) := by
      rw [splitAtGap?]
      rintro _ rfl
      exact absurd rfl hc
    rw [List.cons_append, hskip, ih hcs, Option.map_map]
    rfl

/-- A single colon is passed over in the search for a double one. -/
theorem splitAtGap?_colon {c : Char} (hc : c ≠ ':') (cs : List Char) :
    splitAtGap? (':' :: c :: cs) =
      (splitAtGap? (c :: cs)).map fun (before, after) => (':' :: before, after) := by
  rw [splitAtGap?]
  rintro _ - ⟨⟩
  exact hc rfl

/-- Groups start with a digit. -/
theorem exists_groupChars_eq_cons (g : UInt16) (gs : List UInt16) :
    ∃ d < 16, ∃ cs, groupChars (g :: gs) = d.digitChar :: cs := by
  obtain ⟨d, hd, cs, hdigits⟩ := exists_toDigits_eq_cons (show 1 < 16 by decide) g.toNat
  cases gs with
  | nil => exact ⟨d, hd, cs, hdigits⟩
  | cons g' gs =>
    refine ⟨d, hd, cs ++ ':' :: groupChars (g' :: gs), ?_⟩
    rw [groupChars, hexadecimal, hdigits]
    · rfl
    · simp

/-- Groups are passed over in the search for a double colon, since none of them is empty. -/
theorem splitAtGap?_groupChars_append (gs : List UInt16) (rest : List Char) :
    splitAtGap? (groupChars gs ++ rest) =
      (splitAtGap? rest).map fun (before, after) => (groupChars gs ++ before, after) := by
  have hcolon (g : UInt16) : ':' ∉ hexadecimal g.toNat :=
    colon_not_mem_toDigits (by decide) (by decide)
  induction gs with
  | nil => simp [groupChars]
  | cons g gs ih =>
    cases gs with
    | nil => exact splitAtGap?_append (hcolon g) rest
    | cons g' gs =>
      obtain ⟨d, hd, cs, hstart⟩ := exists_groupChars_eq_cons g' gs
      have hdigit : ∀ d < 16, d.digitChar ≠ ':' := by decide
      have hcolon' : splitAtGap? (':' :: (groupChars (g' :: gs) ++ rest)) =
          (splitAtGap? (groupChars (g' :: gs) ++ rest)).map
            fun (before, after) => (':' :: before, after) := by
        rw [hstart]
        exact splitAtGap?_colon (hdigit d hd) _
      simp only [groupChars, List.append_assoc, List.cons_append]
      rw [splitAtGap?_append (hcolon g), hcolon', ih, Option.map_map, Option.map_map]
      simp [Function.comp_def]

/-- Parts that are numerals of groups read back as the groups. -/
theorem readParts?_hexadecimal (dotted : Bool) (gs : List UInt16) :
    readParts? dotted (gs.map fun g => hexadecimal g.toNat) = some gs := by
  induction gs with
  | nil => rfl
  | cons g gs ih =>
    cases gs with
    | nil => simp [readParts?, readGroup?_hexadecimal]
    | cons g' gs =>
      simp only [List.map_cons] at ih ⊢
      rw [readParts?, ih, readGroup?_hexadecimal]
      · rfl
      · simp

/-- The colons between groups split their text into their numerals. -/
theorem splitOn_groupChars {gs : List UInt16} (hne : gs ≠ []) :
    (groupChars gs).splitOn ':' = gs.map fun g => hexadecimal g.toNat := by
  have hcolon (g : UInt16) : ':' ∉ hexadecimal g.toNat :=
    colon_not_mem_toDigits (by decide) (by decide)
  induction gs with
  | nil => exact absurd rfl hne
  | cons g gs ih =>
    cases gs with
    | nil => exact List.splitOn_eq_singleton (hcolon g)
    | cons g' gs =>
      rw [groupChars, List.splitOn_append_cons_self_of_not_mem (hcolon g), ih (by simp)]
      · rfl
      · simp

/-- Groups read back from their text. -/
theorem readGroups?_groupChars (dotted : Bool) (gs : List UInt16) :
    readGroups? dotted (groupChars gs) = some gs := by
  cases gs with
  | nil => rfl
  | cons g gs =>
    obtain ⟨d, -, cs, hstart⟩ := exists_groupChars_eq_cons g gs
    have hne : (groupChars (g :: gs)).isEmpty = false := by
      rw [hstart]
      rfl
    rw [readGroups?, hne, splitOn_groupChars (by simp)]
    exact readParts?_hexadecimal dotted (g :: gs)

/-- Two octets are the halves of the group that they fill. -/
theorem group_of_halves (g : UInt16) :
    (g >>> 8).toUInt8.toUInt16 <<< 8 ||| g.toUInt8.toUInt16 = g := by
  have hlt : g.toNat < 65536 := g.toNat_lt
  have hhigh : g.toNat / 256 < 256 := by omega
  have hshift : (g.toNat / 256) <<< 8 = g.toNat / 256 * 256 := Nat.shiftLeft_eq _ 8
  have hlow : g.toNat % 256 < 2 ^ 8 := Nat.mod_lt _ (by decide)
  have hhalves : (g.toNat / 256) <<< 8 ||| g.toNat % 256 = g.toNat := by
    rw [← Nat.shiftLeft_add_eq_or_of_lt hlow, hshift]
    omega
  have hfits : (g.toNat / 256) <<< 8 % 65536 = (g.toNat / 256) <<< 8 := by omega
  apply UInt16.toNat_inj.mp
  simp [Nat.shiftRight_eq_div_pow, Nat.mod_eq_of_lt hhigh, hfits, hhalves]

/-- The groups of an address that holds an IPv4 one. -/
theorem groups_of_mapped? {a : IPv6} {inner : IPv4} (hinner : a.mapped? = some inner) :
    a.groups.toList = List.replicate 5 0 ++ 0xffff :: groupsOfIPv4 inner := by
  obtain ⟨⟨⟨groups⟩, hlength⟩⟩ := a
  match groups, hlength with
  | [g₀, g₁, g₂, g₃, g₄, g₅, g₆, g₇], _ =>
    unfold mapped? at hinner
    split at hinner
    · rename_i hfront
      cases hinner
      obtain ⟨rfl, rfl, rfl, rfl, rfl, rfl⟩ :
          g₀ = 0 ∧ g₁ = 0 ∧ g₂ = 0 ∧ g₃ = 0 ∧ g₄ = 0 ∧ g₅ = 0xffff := by simpa using hfront
      rw [groupsOfIPv4]
      change _ = ([0, 0, 0, 0, 0, 0xffff, (g₆ >>> 8).toUInt8.toUInt16 <<< 8 ||| g₆.toUInt8.toUInt16,
        (g₇ >>> 8).toUInt8.toUInt16 <<< 8 ||| g₇.toUInt8.toUInt16] : List UInt16)
      rw [group_of_halves, group_of_halves]
      rfl
    · cases hinner

/-- The groups of an address make the address. -/
theorem ofGroups?_toList (a : IPv6) : ofGroups? a.groups.toList = some a := by
  have hlength : a.groups.toList.length = 8 := a.groups.length_toList
  rw [ofGroups?, dif_pos hlength]
  rfl

/-- Where a double colon stands for at least one group, and the groups around it are those of an
address, the text reads as the address. -/
theorem read?_of_gap {a : IPv6} {before after : List Char} {front back : List UInt16} {n : Nat}
    (hfront : readGroups? false before = some front) (hback : readGroups? true after = some back)
    (hn : 0 < n) (hgroups : front ++ (List.replicate n 0 ++ back) = a.groups.toList)
    {cs : List Char} (hsplit : splitAtGap? cs = some (before, after)) : read? cs = some a := by
  have hlength : front.length + (n + back.length) = 8 := by
    simpa using congrArg List.length hgroups
  have hmissing : 8 - (front.length + back.length) = n := by omega
  simp only [read?, hsplit, hfront, hback, Option.bind_eq_bind, Option.bind_some, hmissing]
  rw [if_neg (by omega), List.append_assoc, hgroups]
  exact ofGroups?_toList a

/-- The text of an address that holds an IPv4 one reads back as the address. -/
theorem read?_mapped {a : IPv6} {inner : IPv4} (hinner : a.mapped? = some inner) :
    read? ("::ffff:".toList ++ inner.chars) = some a := by
  have hsplit : splitAtGap? ("::ffff:".toList ++ inner.chars) =
      some ([], "ffff:".toList ++ inner.chars) := rfl
  have hparts : ("ffff:".toList ++ inner.chars).splitOn ':' = ["ffff".toList, inner.chars] := by
    have hmark : "ffff:".toList ++ inner.chars = "ffff".toList ++ ':' :: inner.chars := rfl
    rw [hmark, List.splitOn_append_cons_self_of_not_mem (by decide),
      List.splitOn_eq_singleton inner.colon_not_mem_chars]
  have hlong : ¬inner.chars.length ≤ 4 := by
    have := inner.seven_le_length_chars
    omega
  have hlast : readParts? true [inner.chars] = some (groupsOfIPv4 inner) := by
    simp [readParts?, readGroup?, hlong, IPv4.read?_chars]
  have hback : readGroups? true ("ffff:".toList ++ inner.chars) =
      some (0xffff :: groupsOfIPv4 inner) := by
    have hne : ("ffff:".toList ++ inner.chars).isEmpty = false := rfl
    have hmark : readGroup? "ffff".toList = some 0xffff := rfl
    rw [readGroups?, hne, hparts, if_neg (by decide), readParts?, hmark, hlast]
    · rfl
    · simp
  exact read?_of_gap rfl hback (Nat.succ_pos 4) (groups_of_mapped? hinner).symm hsplit

/-- The forms in which an address is written. -/
inductive WrittenAs (a : IPv6) : List Char → Prop where
  /-- An IPv4 address inside it is written as one. -/
  | mapped {inner : IPv4} (hinner : a.mapped? = some inner) :
      WrittenAs a ("::ffff:".toList ++ inner.chars)
  /-- All groups are written. -/
  | full (hplain : a.mapped? = none) : WrittenAs a (groupChars a.groups.toList)
  /-- Zero groups in a row are left out. -/
  | compressed {start n : Nat} (hplain : a.mapped? = none) (hn : 0 < n)
      (hgroups : a.groups.toList.take start ++
        (List.replicate n 0 ++ a.groups.toList.drop (start + n)) = a.groups.toList) :
      WrittenAs a (groupChars (a.groups.toList.take start) ++
        ':' :: ':' :: groupChars (a.groups.toList.drop (start + n)))

/-- Every address is written in one of the forms. -/
theorem writtenAs_chars (a : IPv6) : WrittenAs a a.chars := by
  rcases hinner : a.mapped? with _ | inner
  · have hgroups := take_zeros_drop a.groups.toList
    simp only [chars, hinner]
    split
    · exact .full hinner
    · exact .compressed hinner (by omega) hgroups
  · simp only [chars, hinner]
    exact .mapped hinner

/-- An address reads back from every form in which it is written. -/
theorem WrittenAs.read?_eq {a : IPv6} {cs : List Char} (hform : WrittenAs a cs) :
    read? cs = some a := by
  cases hform with
  | mapped hinner => exact read?_mapped hinner
  | full =>
    have hsplit : splitAtGap? (groupChars a.groups.toList) = none := by
      simpa [splitAtGap?] using splitAtGap?_groupChars_append a.groups.toList []
    simp only [read?, hsplit, readGroups?_groupChars]
    exact ofGroups?_toList a
  | @compressed start n _ hn hgroups =>
    have hsplit := splitAtGap?_groupChars_append (a.groups.toList.take start)
      (':' :: ':' :: groupChars (a.groups.toList.drop (start + n)))
    simp only [splitAtGap?, Option.map_some, List.append_nil] at hsplit
    exact read?_of_gap (readGroups?_groupChars _ _) (readGroups?_groupChars _ _) hn hgroups hsplit

/-- A character of the text of groups is a digit or a colon. -/
theorem digit_or_colon_of_mem_groupChars {gs : List UInt16} {c : Char} (hc : c ∈ groupChars gs) :
    (∃ d < 16, c = d.digitChar) ∨ c = ':' := by
  induction gs with
  | nil => cases hc
  | cons g gs ih =>
    have hdigit (hg : c ∈ hexadecimal g.toNat) : ∃ d < 16, c = d.digitChar :=
      exists_digit_of_mem_toDigits (by decide) hg
    cases gs with
    | nil => exact .inl (hdigit hc)
    | cons g' gs =>
      rcases List.mem_append.mp hc with hc | hc
      · exact .inl (hdigit hc)
      · rcases List.mem_cons.mp hc with hc | hc
        · exact .inr hc
        · exact ih hc

/-- A character of the text of an IPv6 address is a digit, a colon or a point. -/
theorem WrittenAs.digit_or_mark {a : IPv6} {cs : List Char} (hform : WrittenAs a cs) {c : Char}
    (hc : c ∈ cs) : (∃ d < 16, c = d.digitChar) ∨ c = ':' ∨ c = '.' := by
  have hgroups {gs : List UInt16} (hc : c ∈ groupChars gs) :
      (∃ d < 16, c = d.digitChar) ∨ c = ':' ∨ c = '.' :=
    (digit_or_colon_of_mem_groupChars hc).imp_right .inl
  cases hform with
  | mapped =>
    rcases List.mem_append.mp hc with hc | hc
    · have hstart : "::ffff:".toList.all (fun d => d == Nat.digitChar 15 || d == ':') = true := by
        decide
      have hmark := List.all_eq_true.mp hstart c hc
      simp only [Bool.or_eq_true, beq_iff_eq] at hmark
      rcases hmark with hc | hc
      · exact .inl ⟨15, by decide, hc⟩
      · exact .inr (.inl hc)
    · exact (IPv4.digit_or_point_of_mem_chars hc).imp_right .inr
  | full => exact hgroups hc
  | compressed =>
    simp only [List.mem_append, List.mem_cons] at hc
    rcases hc with hc | hc | hc | hc
    · exact hgroups hc
    · exact .inr (.inl hc)
    · exact .inr (.inl hc)
    · exact hgroups hc

/-- The text of groups holds no point. -/
theorem point_not_mem_groupChars (gs : List UInt16) : '.' ∉ groupChars gs := by
  intro hmem
  rcases digit_or_colon_of_mem_groupChars hmem with ⟨d, hd, hc⟩ | hc
  · revert d
    decide
  · cases hc

/-- A text whose points do not split it into four octets is no IPv4 address. -/
theorem read?_ipv4_of_no_point {cs : List Char} (hpoint : '.' ∉ cs) : IPv4.read? cs = none := by
  rw [IPv4.read?, List.splitOn_eq_singleton hpoint]

/-- An IPv4 address behind the mark of a mapped one is not read as itself: the mark makes the first
octet too long. -/
theorem read?_ipv4_mapped (inner : IPv4) :
    IPv4.read? ("::ffff:".toList ++ inner.chars) = none := by
  have hsplit := inner.splitOn_append_chars (show '.' ∉ "::ffff:".toList by decide)
  have hlong : IPv4.readOctet? ("::ffff:".toList ++ decimal inner.first.toNat) = none :=
    if_neg fun hshort => absurd hshort.1 (by simp)
  simp only [IPv4.read?, hsplit, hlong]
  rfl

/-- The text of an IPv6 address is none of an IPv4 one: its points do not split it into octets. -/
theorem WrittenAs.read?_ipv4 {a : IPv6} {cs : List Char} (hform : WrittenAs a cs) :
    IPv4.read? cs = none := by
  cases hform with
  | @mapped inner hinner =>
    exact read?_ipv4_mapped inner
  | full => exact read?_ipv4_of_no_point (point_not_mem_groupChars _)
  | compressed =>
    refine read?_ipv4_of_no_point ?_
    simp [point_not_mem_groupChars]

/-- No form in which an address is written starts with a point. -/
theorem WrittenAs.head?_ne_point {a : IPv6} {cs : List Char} (hform : WrittenAs a cs) :
    cs.head? ≠ some '.' := by
  have hdigit : ∀ d < 16, d.digitChar ≠ '.' := by decide
  have hgroups {gs : List UInt16} {rest : List Char} (hrest : gs = [] → rest.head? ≠ some '.') :
      (groupChars gs ++ rest).head? ≠ some '.' := by
    cases gs with
    | nil => exact hrest rfl
    | cons g gs =>
      obtain ⟨d, hd, more, hstart⟩ := exists_groupChars_eq_cons g gs
      rw [hstart]
      exact fun h => hdigit d hd (Option.some.inj h)
  cases hform with
  | mapped => simp
  | full =>
    have hfull := hgroups (show a.groups.toList = [] → [].head? ≠ some '.' by simp)
    rwa [List.append_nil] at hfull
  | compressed => exact hgroups (by simp)

end IPv6

namespace Address

/-- An address reads back from its text. -/
theorem read?_chars (a : Address) : read? a.chars = some a := by
  cases a with
  | v4 a => simp [read?, chars, IPv4.read?_chars]
  | v6 a =>
    simp [read?, chars, a.writtenAs_chars.read?_ipv4, a.writtenAs_chars.read?_eq]

/-- A character of the text of an address is a digit, a colon or a point. -/
theorem digit_or_mark_of_mem_chars {a : Address} {c : Char} (hc : c ∈ a.chars) :
    (∃ d < 16, c = d.digitChar) ∨ c = ':' ∨ c = '.' := by
  cases a with
  | v4 a => exact (IPv4.digit_or_point_of_mem_chars hc).imp_right .inr
  | v6 a => exact a.writtenAs_chars.digit_or_mark hc

/-- No text of an address starts with a point. -/
theorem head?_chars (a : Address) : a.chars.head? ≠ some '.' := by
  have hdigit : ∀ d < 16, d.digitChar ≠ '.' := by decide
  cases a with
  | v4 a =>
    obtain ⟨d, hd, cs, hdigits⟩ := exists_toDigits_eq_cons (show 1 < 10 by decide) a.first.toNat
    have hhead : (v4 a).chars.head? = some d.digitChar := by
      simp [chars, IPv4.chars, decimal, hdigits]
    rw [hhead]
    exact fun h => hdigit d (by omega) (Option.some.inj h)
  | v6 a => exact a.writtenAs_chars.head?_ne_point

end Address

end PortWarden
