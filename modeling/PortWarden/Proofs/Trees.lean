import PortWarden.Proofs.Mappings

/-!
# Trees of block mappings

The parser reads the tokens of a block mapping as the tree of its entries. No node of the tree has
an anchor, so that numbering leaves it as it is.
-/

namespace PortWarden.Yaml

open BlockValue

/-- A scalar without properties is a node. -/
theorem node?_scalar (handles : TagHandles) (fuel : Nat) (position : Position) (style : ScalarStyle)
    (text : List Char) (ts : List Token) :
    node? handles (fuel + 1) position (.scalar style text :: ts) =
      some (.scalar style none text, ts) := by
  simp [node?, properties?, Properties.scalar, Properties.apply]

/-- Outside of flow collections the start of a block mapping and its entries are a node. -/
theorem node?_mapping (handles : TagHandles) (fuel : Nat) {position : Position}
    (hposition : position ≠ .flow) (ts : List Token) :
    node? handles (fuel + 1) position (.blockMappingStart :: ts) =
      (blockEntries? handles fuel ts).map fun read => (.mapping read.1, read.2) := by
  simp only [node?, properties?, Option.bind_eq_bind, Option.bind_some, if_neg hposition,
    Properties.apply]
  cases blockEntries? handles fuel ts <;> rfl

/-- Entries whose values are read as nodes are read as the rest of a block mapping. -/
theorem blockEntries?_flatMap (handles : TagHandles) {α : Type} (key : α → List Char)
    (value : α → List Token) (node : α → Node (List Char)) (entries : List α)
    (hvalue : ∀ entry ∈ entries, ∀ fuel ts, (value entry).length ≤ fuel →
      endsBlockPart (value entry ++ ts) = false ∧
        node? handles fuel .blockMapping (value entry ++ ts) = some (node entry, ts))
    (fuel : Nat) (ts : List Token)
    (hfuel : (entries.flatMap fun entry => entryTokens (key entry) (value entry)).length < fuel) :
    blockEntries? handles fuel
        ((entries.flatMap fun entry => entryTokens (key entry) (value entry)) ++ .blockEnd :: ts) =
      some (entries.map fun entry => (.scalar .plain none (key entry), node entry), ts) := by
  induction entries generalizing fuel with
  | nil =>
    obtain ⟨fuel, rfl⟩ : ∃ k, fuel = k + 1 := ⟨fuel - 1, by omega⟩
    simp [blockEntries?]
  | cons entry entries ih =>
    have hmore : ∀ entry ∈ entries, _ :=
      fun entry hentry => hvalue entry (List.mem_cons_of_mem _ hentry)
    simp only [List.flatMap_cons, List.length_append, List.append_assoc] at hfuel ⊢
    have hlength : (entryTokens (key entry) (value entry)).length = (value entry).length + 3 := rfl
    obtain ⟨fuel, rfl⟩ : ∃ k, fuel = k + 1 + 1 := ⟨fuel - 2, by omega⟩
    have hrest := ih hmore (fuel + 1) (by omega)
    generalize (entries.flatMap fun entry => entryTokens (key entry) (value entry)) ++
      .blockEnd :: ts = rest at hrest ⊢
    obtain ⟨hends, hnode⟩ := hvalue entry List.mem_cons_self (fuel + 1) rest (by omega)
    have hkey := node?_scalar handles fuel .blockMapping .plain (key entry)
    have hscalar (ts : List Token) : endsBlockPart (.scalar .plain (key entry) :: ts) = false := rfl
    simp [blockEntries?, entryTokens, hscalar, hkey, hends, hnode, hrest]

/-- A value is read as its node. -/
theorem node?_value (handles : TagHandles) (value : BlockValue) (fuel : Nat) (ts : List Token)
    (hfuel : value.tokens.length ≤ fuel) :
    endsBlockPart (value.tokens ++ ts) = false ∧
      node? handles fuel .blockMapping (value.tokens ++ ts) = some (value.node, ts) := by
  refine ⟨by cases value <;> rfl, ?_⟩
  cases value with
  | word text =>
    obtain ⟨fuel, rfl⟩ : ∃ k, fuel = k + 1 :=
      ⟨fuel - 1, (Nat.sub_add_cancel hfuel).symm⟩
    exact node?_scalar handles fuel .blockMapping (wordStyle text) text ts
  | words first more =>
    have hlength : (words first more).tokens.length =
        ((first :: more).flatMap fun entry => wordTokens entry.1 entry.2).length + 2 := by
      simp only [tokens, List.length_append, List.length_cons, List.length_nil]
    obtain ⟨fuel, rfl⟩ : ∃ k, fuel = k + 1 := ⟨fuel - 1, by omega⟩
    have hword : ∀ entry ∈ first :: more, ∀ fuel ts,
        [Token.scalar (wordStyle entry.2) entry.2].length ≤ fuel →
        endsBlockPart ([.scalar (wordStyle entry.2) entry.2] ++ ts) = false ∧
          node? handles fuel .blockMapping ([.scalar (wordStyle entry.2) entry.2] ++ ts) =
            some (wordNode (wordStyle entry.2) entry.2, ts) := by
      intro entry _ fuel ts hfuel
      obtain ⟨fuel, rfl⟩ : ∃ k, fuel = k + 1 :=
        ⟨fuel - 1, (Nat.sub_add_cancel hfuel).symm⟩
      exact ⟨rfl, node?_scalar handles fuel .blockMapping _ _ ts⟩
    have hinner : ((first :: more).flatMap fun entry => entryTokens entry.1
        [.scalar (wordStyle entry.2) entry.2]).length < fuel := by
      change ((first :: more).flatMap fun entry => wordTokens entry.1 entry.2).length < fuel
      omega
    have hentries := blockEntries?_flatMap handles Prod.fst _ _ (first :: more) hword fuel ts hinner
    simp only [tokens, List.cons_append, List.append_assoc]
    rw [node?_mapping handles fuel (by decide)]
    exact congrArg (Option.map _) hentries

/-- A block mapping is read as the tree of its entries. -/
theorem document?_entries {entries : List (List Char × BlockValue)} (hne : entries ≠ [])
    (hentries : ∀ entry ∈ entries, IsKey entry.1 ∧ entry.2.Ok) :
    document? (entries.flatMap fun entry => entry.2.chars entry.1) =
      some (some
        (.mapping (entries.map fun entry => (wordNode .plain entry.1, entry.2.node)))) := by
  let inner := (entries.flatMap fun entry => entryTokens entry.1 entry.2.tokens) ++ [.blockEnd]
  have htokens : tokens? (entries.flatMap fun entry => entry.2.chars entry.1) =
      some (.blockMappingStart :: inner) := tokens?_entries hne hentries
  have hread := blockEntries?_flatMap defaultHandles (fun entry => entry.1)
    (fun entry => entry.2.tokens) (fun entry => entry.2.node) entries
    (fun entry _ => node?_value defaultHandles entry.2) (2 * inner.length + 3) []
    (by simp only [inner, List.length_append, List.length_singleton]; omega)
  have hnode : documentNode? (.blockMappingStart :: inner) =
      some (.mapping (entries.map fun entry => (wordNode .plain entry.1, entry.2.node)), []) := by
    have hfuel : 2 * (Token.blockMappingStart :: inner).length + 2 = 2 * inner.length + 3 + 1 := by
      simp only [List.length_cons]
      omega
    have hstart : documentNode? (.blockMappingStart :: inner) =
        node? defaultHandles (2 * (Token.blockMappingStart :: inner).length + 2) .block
          (.blockMappingStart :: inner) := rfl
    rw [hstart, hfuel, node?_mapping defaultHandles _ (by decide)]
    exact congrArg (Option.map _) hread
  simp [document?, htokens, hnode]

/-- Entries without anchors are numbered as they are. -/
theorem numberEntries?_map {α : Type} (name : α → Node (List Char) × Node (List Char))
    (number : α → Node Nat × Node Nat) (entries : List α) (numbers : AnchorNumbers)
    (hentries : ∀ entry ∈ entries,
      (name entry).1.number? numbers = some ((number entry).1, numbers) ∧
        (name entry).2.number? numbers = some ((number entry).2, numbers)) :
    numberEntries? (entries.map name) numbers = some (entries.map number, numbers) := by
  induction entries with
  | nil => rfl
  | cons entry entries ih =>
    obtain ⟨hkey, hvalue⟩ := hentries entry List.mem_cons_self
    have hmore := ih fun entry hentry => hentries entry (List.mem_cons_of_mem _ hentry)
    simp [numberEntries?, hkey, hvalue, hmore]

/-- The node of a value has no anchor. -/
theorem number?_value (value : BlockValue) (numbers : AnchorNumbers) :
    Node.number? value.node numbers = some (value.node, numbers) := by
  cases value with
  | word text => rfl
  | words first more =>
    have hentries := numberEntries?_map
      (fun entry : List Char × List Char =>
        (wordNode .plain entry.1, wordNode (wordStyle entry.2) entry.2))
      (fun entry => (wordNode .plain entry.1, wordNode (wordStyle entry.2) entry.2))
      (first :: more) numbers fun _ _ => ⟨rfl, rfl⟩
    simp only [node, Node.number?, hentries]
    rfl

/-- The document of a block mapping is the tree of its entries. -/
theorem ofNode?_entries (entries : List (List Char × BlockValue)) :
    ∃ anchors, Document.ofNode?
        (.mapping (entries.map fun entry => (wordNode .plain entry.1, entry.2.node))) =
      some ⟨.mapping (entries.map fun entry => (wordNode .plain entry.1, entry.2.node)),
        anchors⟩ := by
  have hentries := numberEntries?_map
    (fun entry : List Char × BlockValue => (wordNode .plain entry.1, entry.2.node))
    (fun entry => (wordNode .plain entry.1, entry.2.node)) entries []
    fun entry _ => ⟨rfl, number?_value entry.2 []⟩
  let root : Node Nat :=
    .mapping (entries.map fun entry => (wordNode .plain entry.1, entry.2.node))
  refine ⟨root.anchors.reverse, ?_⟩
  simp only [Document.ofNode?, Node.number?, hentries]
  rfl

end PortWarden.Yaml
