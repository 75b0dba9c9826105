import PortWarden.CommandLine.Report
import PortWarden.Proofs.Spelling

/-!
# What reports tell

A report tells a protocol, a port and, where the port was checked, whether it is free. A reader of
sentences finds this among the words, and a reader of objects by the names of the members; whatever
the style of a report, it is read back as what it was made from.
-/

namespace PortWarden.CommandLine

open PortWarden.Text

/-- What is told of a port. -/
structure Told where
  /-- The protocol of the port. -/
  protocol : Protocol
  /-- The port. -/
  port : UInt16
  /-- Whether it is free, where it was checked. -/
  free : Option Bool
  deriving DecidableEq, Repr

/-- Whether a port is free, where it was checked. -/
def Finding.free? : Finding → Option Bool
  | .checked free => some free
  | .picked | .held _ => none

/-- What a report tells. -/
def Report.told (r : Report) : Told := ⟨r.protocol, r.port, r.finding.free?⟩

/-- What stands in no part and between none is not in the whole. -/
theorem not_mem_intercalate {c mark : Char} {parts : List (List Char)} (hne : c ≠ mark)
    (hparts : ∀ part ∈ parts, c ∉ part) : c ∉ [mark].intercalate parts := by
  induction parts with
  | nil => simp [List.intercalate]
  | cons part parts ih =>
    obtain ⟨hpart, hrest⟩ := List.forall_mem_cons.mp hparts
    cases parts with
    | nil => rwa [List.intercalate_singleton]
    | cons next parts =>
      rw [List.intercalate_cons_cons]
      simp [hpart, hne, ih hrest]

/-! ## Readers -/

namespace Told

/-- Reads a protocol and a port. -/
def ofTexts? (protocol port : String) (free : Option Bool) : Option Told := do
  return ⟨← Protocol.ofName? protocol, ← (readUInt16 port.toList).toOption, free⟩

/-- Reads the words of a sentence. -/
def ofWords? : List String → Option Told
  | ["Port", port, "is", "available", "for", "a", protocol, "connection"] =>
    ofTexts? protocol port (some true)
  | ["Port", port, "is", "not", "available", "for", "a", protocol, "connection"] =>
    ofTexts? protocol port (some false)
  | ["Randomly", "selected", protocol, "port:", port]
  | ["Holding", protocol, "port", port, "for", _] => ofTexts? protocol port none
  | _ => none

/-- Reads a sentence between two empty lines. -/
def ofSentence? (output : String) : Option Told :=
  match output.toList.splitOn '\n' with
  | [[], sentence, [], []] => ofWords? ((sentence.splitOn ' ').map String.ofList)
  | _ => none

/-- The text between quotes. -/
def unquote? (cs : List Char) : Option String :=
  match cs.splitOn '"' with
  | [[], text, []] => some (String.ofList text)
  | _ => none

/-- Reads a member of an object: its name, and the text of its value. -/
def member? (cs : List Char) : Option (String × String) :=
  match cs.splitOn ':' with
  | [name, value] => (unquote? name).map (·, String.ofList value)
  | _ => none

/-- Reads an object on a line of its own, whose members are no objects themselves. -/
def members? (output : String) : Option (List (String × String)) :=
  match output.toList.splitOn '\x7b' with
  | [[], rest] =>
    match rest.splitOn '\x7d' with
    | [members, ['\n']] => (members.splitOn ',').mapM member?
    | _ => none
  | _ => none

/-- Reads the members of an object, which may stand in any order. -/
def ofMembers? (members : List (String × String)) : Option Told := do
  let protocol ← unquote? (← members.lookup "protocol").toList
  let port ← members.lookup "port"
  match members.lookup "available" with
  | none => ofTexts? protocol port none
  | some "true" => ofTexts? protocol port (some true)
  | some "false" => ofTexts? protocol port (some false)
  | some _ => none

/-- Reads what was written in a style. -/
def ofOutput? (output : String) : Style → Option Told
  | .text => ofSentence? output
  | .json => members? output >>= ofMembers?

/-! ## What is written -/

/-- A port is written in digits. -/
theorem toList_toString_port (port : UInt16) : (toString port).toList = decimal port.toNat :=
  String.toList_ofList

/-- A number of seconds is written in digits. -/
theorem toList_toString_seconds (seconds : UInt64) :
    (toString seconds).toList = decimal seconds.toNat :=
  String.toList_ofList

/-- A protocol and a port are read back from what is written of them. -/
theorem ofTexts?_name (protocol : Protocol) (port : UInt16) (free : Option Bool) :
    ofTexts? protocol.name (toString port) free = some ⟨protocol, port, free⟩ := by
  have hport : readUInt16 (toString port).toList = .ok port := by
    rw [toList_toString_port]
    exact readUInt16_eq_ok_iff.mpr (.inl (decimalNumeral_decimal _))
  have hprotocol : Protocol.ofName? protocol.name = some protocol := by
    cases protocol <;> decide
  simp only [ofTexts?, hport, hprotocol]
  rfl

/-- The characters that hold an object together. -/
def marks : List Char := ['\x7b', '\x7d', ',', ':']

/-- There is none of them in a text. -/
def Markless (text : String) : Prop := ∀ mark ∈ marks, mark ∉ text.toList

/-- Whether there is any is found out mark by mark, and not by going through all characters. -/
instance (text : String) : Decidable (Markless text) := List.decidableBAll (· ∉ text.toList) marks

/-- Nothing in a member is taken for what holds an object together. -/
structure Plain (member : String × String) : Prop where
  /-- There is no quote in the name. -/
  unquoted : '"' ∉ member.1.toList
  /-- There is no mark in the name. -/
  name : Markless member.1
  /-- There is no mark in the value. -/
  value : Markless member.2

/-- A text is read back from between its quotes. -/
theorem unquote?_quoted {text : String} (htext : '"' ∉ text.toList) :
    unquote? ('"' :: text.toList ++ ['"']) = some text := by
  have hsplit : ('"' :: text.toList ++ ['"']).splitOn '"' = [[], text.toList, []] := by
    rw [List.cons_append, ← List.nil_append ('"' :: _),
      List.splitOn_append_cons_self_of_not_mem List.not_mem_nil,
      List.splitOn_append_cons_self_of_not_mem htext]
    rfl
  simp only [unquote?, hsplit, String.ofList_toList]

/-- The characters of a member. -/
def memberChars (member : String × String) : List Char :=
  '"' :: member.1.toList ++ '"' :: ':' :: member.2.toList

variable {member : String × String}

/-- A mark other than a colon is not in a plain member. -/
theorem Plain.not_mem (hplain : Plain member) {mark : Char} (hmark : mark ∈ marks)
    (hcolon : mark ≠ ':') : mark ∉ memberChars member := by
  have hquote : mark ≠ '"' := by
    rintro rfl
    revert hmark
    decide
  simp [memberChars, hquote, hcolon, hplain.name mark hmark, hplain.value mark hmark]

/-- A plain member is read back. -/
theorem Plain.member?_chars (hplain : Plain member) :
    member? (memberChars member) = some member := by
  have hname : ':' ∉ '"' :: member.1.toList ++ ['"'] := by
    simp [hplain.name ':' (by decide)]
  have hsplit : (memberChars member).splitOn ':' =
      ['"' :: member.1.toList ++ ['"'], member.2.toList] := by
    have hchars : memberChars member =
        ('"' :: member.1.toList ++ ['"']) ++ ':' :: member.2.toList := by
      simp [memberChars]
    rw [hchars, List.splitOn_append_cons_self_of_not_mem hname,
      List.splitOn_eq_singleton (hplain.value ':' (by decide))]
  simp only [member?, hsplit, unquote?_quoted hplain.unquoted, String.ofList_toList,
    Option.map_some]

/-- Plain members are read back one after the other. -/
theorem mapM_member? {members : List (String × String)}
    (hplain : ∀ member ∈ members, Plain member) :
    (members.map memberChars).mapM member? = some members := by
  induction members with
  | nil => rfl
  | cons member rest ih =>
    obtain ⟨hfirst, hrest⟩ := List.forall_mem_cons.mp hplain
    rw [List.map_cons, List.mapM_cons, hfirst.member?_chars, ih hrest]
    rfl

/-- The members of an object are read back. -/
theorem members?_object {members : List (String × String)} (hne : members ≠ [])
    (hplain : ∀ member ∈ members, Plain member) {output : String}
    (houtput : output.toList = '\x7b' :: [','].intercalate (members.map memberChars) ++
      ['\x7d', '\n']) : members? output = some members := by
  have hnot (mark : Char) (hmark : mark ∈ marks) (hcolon : mark ≠ ':') :
      ∀ chars ∈ members.map memberChars, mark ∉ chars := by
    intro chars hchars
    obtain ⟨member, hmember, rfl⟩ := List.mem_map.mp hchars
    exact (hplain member hmember).not_mem hmark hcolon
  have hopen : output.toList.splitOn '\x7b' =
      [[], [','].intercalate (members.map memberChars) ++ ['\x7d', '\n']] := by
    have hrest : '\x7b' ∉ [','].intercalate (members.map memberChars) ++ ['\x7d', '\n'] := by
      simp [not_mem_intercalate (show '\x7b' ≠ ',' by decide)
        (hnot '\x7b' (by decide) (by decide))]
    rw [houtput, List.cons_append, ← List.nil_append ('\x7b' :: _),
      List.splitOn_append_cons_self_of_not_mem List.not_mem_nil, List.splitOn_eq_singleton hrest]
  have hclose : ([','].intercalate (members.map memberChars) ++ ['\x7d', '\n']).splitOn '\x7d' =
      [[','].intercalate (members.map memberChars), ['\n']] := by
    rw [List.splitOn_append_cons_self_of_not_mem
      (not_mem_intercalate (by decide) (hnot '\x7d' (by decide) (by decide)))]
    rfl
  have hmembers : ([','].intercalate (members.map memberChars)).splitOn ',' =
      members.map memberChars :=
    List.splitOn_intercalate ',' (hnot ',' (by decide) (by decide)) (by simpa using hne)
  simp only [members?, hopen, hclose, hmembers, mapM_member? hplain]

end Told

namespace Report

/-- The words of a report. -/
def words (r : Report) : List String :=
  match r.finding with
  | .checked true =>
    ["Port", toString r.port, "is", "available", "for", "a", r.protocol.name, "connection"]
  | .checked false =>
    ["Port", toString r.port, "is", "not", "available", "for", "a", r.protocol.name, "connection"]
  | .picked => ["Randomly", "selected", r.protocol.name, "port:", toString r.port]
  | .held seconds =>
    ["Holding", r.protocol.name, "port", toString r.port, "for", toString seconds ++ "s"]

variable (r : Report)

/-- A sentence is its words with a blank between any two. -/
theorem toList_sentence : r.sentence.toList = [' '].intercalate (r.words.map String.toList) := by
  obtain ⟨protocol, port, finding⟩ := r
  rcases finding with (_ | _) | _ | seconds <;> simp [sentence, words, List.intercalate]

/-- There is no blank within a word. -/
theorem blankless_words : ∀ word ∈ r.words, Blankless word.toList := by
  obtain ⟨protocol, port, finding⟩ := r
  have hport : Blankless (toString port).toList := by
    rw [Told.toList_toString_port]
    exact SignedNumeral.blankless (.inl (decimalNumeral_decimal _))
  have hname : Blankless protocol.name.toList := by
    cases protocol <;> decide
  have hseconds (seconds : UInt64) : Blankless (toString seconds ++ "s").toList := by
    rw [String.toList_append, Told.toList_toString_seconds]
    have hdigits := SignedNumeral.blankless (.inl (decimalNumeral_decimal seconds.toNat))
    have hunit : Blankless "s".toList := by decide
    exact List.forall_mem_append.mpr ⟨hdigits, hunit⟩
  have hothers : ∀ word ∈ ["Port", "is", "not", "available", "for", "a", "connection", "Randomly",
      "selected", "port:", "Holding", "port"], Blankless word.toList := by
    decide
  simp only [List.forall_mem_cons] at hothers
  rcases finding with (_ | _) | _ | seconds <;>
    simp only [words, List.forall_mem_cons, hport, hname, hseconds, hothers, true_and] <;>
    exact List.forall_mem_nil _

/-- The words tell what the report does. -/
theorem ofWords?_words : Told.ofWords? r.words = some r.told := by
  have hback := Told.ofTexts?_name r.protocol r.port r.told.free
  obtain ⟨protocol, port, finding⟩ := r
  rcases finding with (_ | _) | _ | seconds <;> exact hback

/-- A sentence tells what the report does. -/
theorem ofSentence?_render : Told.ofSentence? (r.render .text) = some r.told := by
  have hwords (mark : Char) (hmark : isBlank mark = true) :
      ∀ word ∈ r.words.map String.toList, mark ∉ word := by
    intro word hmem hmark'
    obtain ⟨text, htext, rfl⟩ := List.mem_map.mp hmem
    have hnot := r.blankless_words text htext mark hmark'
    rw [hmark] at hnot
    cases hnot
  have hline : '\n' ∉ r.sentence.toList := by
    rw [toList_sentence]
    exact not_mem_intercalate (by decide) (hwords '\n' (by decide))
  have hne : r.words.map String.toList ≠ [] := by
    rcases r with ⟨protocol, port, (_ | _) | _ | seconds⟩ <;> simp [words]
  have hlines : (r.render .text).toList.splitOn '\n' = [[], r.sentence.toList, [], []] := by
    have hchars : (r.render .text).toList = [] ++ '\n' :: (r.sentence.toList ++ ['\n', '\n']) := by
      simp [render]
    rw [hchars, List.splitOn_append_cons_self_of_not_mem (by decide),
      List.splitOn_append_cons_self_of_not_mem hline]
    rfl
  have hsentence : r.sentence.toList.splitOn ' ' = r.words.map String.toList := by
    rw [toList_sentence]
    exact List.splitOn_intercalate ' ' (hwords ' ' (by decide)) hne
  simp only [Told.ofSentence?, hlines, hsentence, List.map_map]
  simpa using r.ofWords?_words

/-- The members of a report are plain. -/
theorem plain_members : ∀ member ∈ r.members, Told.Plain member := by
  obtain ⟨protocol, port, finding⟩ := r
  have hport : Told.Plain ("port", toString port) := by
    have hname : '"' ∉ "port".toList ∧ Told.Markless "port" := by decide
    refine ⟨hname.1, hname.2, fun mark hmark hwritten => ?_⟩
    rw [Told.toList_toString_port] at hwritten
    have hmarks : ∀ mark ∈ Told.marks, (!mark.isDigit) = true := List.all_eq_true.mp rfl
    have hnot := hmarks mark hmark
    rw [(decimalNumeral_decimal port.toNat).digits mark hwritten] at hnot
    cases hnot
  have hprotocol : Told.Plain ("protocol", "\"" ++ protocol.name ++ "\"") := by
    cases protocol <;> exact ⟨by decide, by decide, by decide⟩
  have hfree (free : Bool) : Told.Plain ("available", toString free) := by
    cases free <;> exact ⟨by decide, by decide, by decide⟩
  have hkept : Told.Plain ("kept", "true") := ⟨by decide, by decide, by decide⟩
  rcases finding with free | _ | seconds <;> simp [members, hport, hprotocol, hfree, hkept]

/-- The members tell what the report does. -/
theorem ofMembers?_members : Told.ofMembers? r.members = some r.told := by
  obtain ⟨protocol, port, finding⟩ := r
  have hback := Told.ofTexts?_name protocol port finding.free?
  have hname : Told.unquote? ("\"" ++ protocol.name ++ "\"").toList = some protocol.name := by
    cases protocol <;> decide
  have hprotocol : (members ⟨protocol, port, finding⟩).lookup "protocol" =
      some ("\"" ++ protocol.name ++ "\"") := by
    rcases finding with _ | _ | _ <;> rfl
  have hport : (members ⟨protocol, port, finding⟩).lookup "port" = some (toString port) := by
    rcases finding with _ | _ | _ <;> rfl
  have hfree : (members ⟨protocol, port, finding⟩).lookup "available" =
      finding.free?.map toString := by
    rcases finding with _ | _ | _ <;> rfl
  simp only [Told.ofMembers?, hprotocol, hport, hfree, Option.bind_eq_bind, Option.bind_some, hname]
  rcases finding with (_ | _) | _ | seconds <;> exact hback

/-- What is written in a style tells what the report does. -/
theorem ofOutput?_render (style : Style) : Told.ofOutput? (r.render style) style = some r.told := by
  cases style with
  | text => exact r.ofSentence?_render
  | json =>
    have hchars : (r.render .json).toList =
        '\x7b' :: [','].intercalate (r.members.map Told.memberChars) ++ ['\x7d', '\n'] := by
      simp [render, object, String.toList_intercalate, Function.comp_def]
      rfl
    have hne : r.members ≠ [] := by simp [members]
    rw [Told.ofOutput?, Told.members?_object hne r.plain_members hchars]
    exact r.ofMembers?_members

end Report

end PortWarden.CommandLine
