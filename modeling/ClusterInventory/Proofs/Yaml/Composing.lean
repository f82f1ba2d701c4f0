import ClusterInventory.Proofs.Yaml.Document
import ClusterInventory.Yaml.Node

/-! # Nodes of lists of texts

The tokens of a document of lists make up one node, whose texts are the ones that were written.
-/

namespace ClusterInventory.Yaml

open Scanner

def textNode (s : String) : Node := .scalar none (styleOf false s = .plain) s

def listNode (l : List String) : Node := .sequence (l.map textNode)

def fieldNode (e : String × List String) : Node × Node := (.scalar none true e.1, listNode e.2)

namespace Composer

variable {handles : Handles} {rest : List Token} {anchors : List (String × Nat × Node)}

theorem node_scalar (block indentless : Bool) (plain : Bool) (text : String) (fuel : Nat) :
    node handles block indentless ⟨.scalar plain text :: rest, anchors⟩ (fuel + 1) =
      some (.scalar none plain text, ⟨rest, anchors⟩) := by
  rw [node]
  rfl

def EndsList (rest : List Token) : Prop := rest.head? = some .key ∨ rest.head? = some .blockEnd

theorem indentlessSequence_items (l : List String) (hRest : EndsList rest) (acc : List Node)
    (fuel : Nat) (hFuel : l.length + 1 < fuel) :
    indentlessSequence handles acc ⟨l.flatMap itemTokens ++ rest, anchors⟩ fuel =
      some (.sequence (acc.reverse ++ l.map textNode), ⟨rest, anchors⟩) := by
  induction l generalizing acc fuel with
  | nil =>
    obtain ⟨fuel, rfl⟩ : ∃ n, fuel = n + 1 := ⟨fuel - 1, by omega⟩
    obtain ⟨t, rest, rfl⟩ : ∃ t r, rest = t :: r := by
      cases rest with
      | nil => rcases hRest with h | h <;> cases h
      | cons t r => exact ⟨t, r, rfl⟩
    rcases hRest with h | h <;>
    · obtain rfl := Option.some.inj h
      simp [indentlessSequence]
  | cons s l ih =>
    rw [List.length_cons] at hFuel
    obtain ⟨fuel, rfl⟩ : ∃ n, fuel = n + 2 := ⟨fuel - 2, by omega⟩
    have hText : node handles true false ⟨textToken s :: (l.flatMap itemTokens ++ rest), anchors⟩
        (fuel + 1) = some (textNode s, ⟨l.flatMap itemTokens ++ rest, anchors⟩) :=
      node_scalar true false _ s fuel
    have hHere : endsIndentless (some (textToken s)) = false := rfl
    rw [List.flatMap_cons, itemTokens, List.append_assoc, List.cons_append, List.singleton_append,
      indentlessSequence]
    simp only [List.head?_cons, hHere, Bool.false_eq_true, if_false, take, hText]
    rw [ih _ _ (by omega)]
    simp

theorem node_list (l : List String) (hRest : EndsList rest) (fuel : Nat)
    (hFuel : l.length + 2 < fuel) :
    node handles true true ⟨listTokens l ++ rest, anchors⟩ fuel =
      some (listNode l, ⟨rest, anchors⟩) := by
  obtain ⟨fuel, rfl⟩ : ∃ n, fuel = n + 2 := ⟨fuel - 2, by omega⟩
  cases l with
  | nil =>
    rw [listTokens, List.cons_append, List.cons_append, List.nil_append, node]
    simp [properties, flowSequence, take, anchor, settle, listNode]
  | cons s l =>
    have hItems := @indentlessSequence_items handles rest anchors (s :: l) hRest [] (fuel + 1)
      (by omega)
    rw [listTokens, List.flatMap_cons, itemTokens, List.cons_append, List.cons_append, node]
    · simpa [properties, take, anchor, settle, listNode, itemTokens] using hItems
    · exact List.cons_ne_nil s l

theorem endsBlockNode_listTokens (l : List String) (rest : List Token) :
    endsBlockNode (listTokens l ++ rest).head? = false := by
  cases l with
  | nil => rfl
  | cons s l => rfl

theorem length_le_listTokens (l : List String) : l.length ≤ (listTokens l).length := by
  cases l with
  | nil => simp
  | cons s l =>
    have hLength (l : List String) : (l.flatMap itemTokens).length = 2 * l.length := by
      induction l with
      | nil => rfl
      | cons s l ih =>
        rw [List.flatMap_cons, List.length_append, ih]
        simp [itemTokens]
        omega
    rw [listTokens, hLength]
    · omega
    · exact List.cons_ne_nil s l

/-- A field of a mapping. -/
theorem blockMapping_field (e : String × List String) (hRest : EndsList rest)
    (acc : List (Node × Node)) (fuel : Nat) (hFuel : (listTokens e.2).length + 2 < fuel) :
    blockMapping handles acc ⟨fieldTokens e ++ rest, anchors⟩ (fuel + 1) =
      blockMapping handles (fieldNode e :: acc) ⟨rest, anchors⟩ fuel := by
  have hLength := length_le_listTokens e.2
  have hList := @node_list handles rest anchors e.2 hRest fuel (by omega)
  have hKey : node handles true true
      ⟨.scalar true e.1 :: .value :: (listTokens e.2 ++ rest), anchors⟩ fuel =
        some (.scalar none true e.1, ⟨.value :: (listTokens e.2 ++ rest), anchors⟩) := by
    obtain ⟨fuel, rfl⟩ : ∃ n, fuel = n + 1 := ⟨fuel - 1, by omega⟩
    exact node_scalar true true true e.1 fuel
  have hHere : endsBlockNode (some (.scalar true e.1)) = false := rfl
  rw [fieldTokens, List.append_assoc, List.cons_append, List.cons_append, List.singleton_append,
    blockMapping]
  simp only [List.head?_cons, hHere, Bool.false_eq_true, if_false, take, hKey,
    endsBlockNode_listTokens, hList]
  rfl

theorem endsList_fields (es : List (String × List String)) (rest : List Token) :
    EndsList (es.flatMap fieldTokens ++ .blockEnd :: rest) := by
  cases es with
  | nil => exact .inr rfl
  | cons e es => exact .inl rfl

theorem blockMapping_fields (es : List (String × List String)) (rest : List Token)
    (acc : List (Node × Node)) (fuel : Nat) (hFuel : (es.flatMap fieldTokens).length < fuel) :
    blockMapping handles acc ⟨es.flatMap fieldTokens ++ .blockEnd :: rest, anchors⟩ fuel =
      some (.mapping (acc.reverse ++ es.map fieldNode), ⟨rest, anchors⟩) := by
  induction es generalizing acc fuel with
  | nil =>
    obtain ⟨fuel, rfl⟩ : ∃ n, fuel = n + 1 := ⟨fuel - 1, by omega⟩
    simp [blockMapping, take]
  | cons e es ih =>
    have hLength : (fieldTokens e).length = (listTokens e.2).length + 3 := by
      simp [fieldTokens]
    rw [List.flatMap_cons, List.length_append, hLength] at hFuel
    obtain ⟨fuel, rfl⟩ : ∃ n, fuel = n + 1 := ⟨fuel - 1, by omega⟩
    rw [List.flatMap_cons, List.append_assoc,
      blockMapping_field e (endsList_fields es rest) acc fuel (by omega), ih _ _ (by omega)]
    simp

theorem node_mapping {found : Node × Composer} {fuel : Nat}
    (h : blockMapping handles [] ⟨rest, anchors⟩ fuel = some found) (indentless : Bool) :
    node handles true indentless ⟨.blockMappingStart :: rest, anchors⟩ (fuel + 1) = some found := by
  rw [node]
  simp [properties, take, anchor, settle, h]

end Composer

namespace Document

variable {d : Document}

def node (d : Document) : Node :=
  .mapping [(.scalar none true d.key, .mapping (d.inner.map fieldNode)), fieldNode d.last]

theorem node_tokens (handles : Handles) (fuel : Nat) (hFuel : d.tokens.length + 2 ≤ fuel) :
    Composer.node handles true false ⟨d.tokens, []⟩ fuel = some (d.node, ⟨[.streamEnd], []⟩) := by
  have hTokens : d.tokens = .blockMappingStart :: .key :: .scalar true d.key :: .value ::
      .blockMappingStart :: (d.inner.flatMap fieldTokens ++
        .blockEnd :: ([d.last].flatMap fieldTokens ++ .blockEnd :: [.streamEnd])) := by
    simp [tokens]
  rw [hTokens] at hFuel ⊢
  simp only [List.length_cons, List.length_append] at hFuel
  obtain ⟨fuel, rfl⟩ : ∃ n, fuel = n + 4 := ⟨fuel - 4, by omega⟩
  have hInner := Composer.node_mapping (@Composer.blockMapping_fields handles [] d.inner
    ([d.last].flatMap fieldTokens ++ .blockEnd :: [.streamEnd]) [] (fuel + 1) (by omega)) true
  have hLast := @Composer.blockMapping_fields handles [] [d.last] [.streamEnd]
    [(.scalar none true d.key, .mapping (d.inner.map fieldNode))] (fuel + 2) (by omega)
  have hKey (rest : List Token) : Composer.node handles true true
      ⟨.scalar true d.key :: rest, []⟩ (fuel + 2) = some (.scalar none true d.key, ⟨rest, []⟩) :=
    Composer.node_scalar true true true d.key (fuel + 1)
  have hHere : Composer.endsBlockNode (some (.scalar true d.key)) = false := rfl
  have hValue : Composer.endsBlockNode (some .blockMappingStart) = false := rfl
  apply Composer.node_mapping
  rw [Composer.blockMapping]
  simp only [List.head?_cons, hHere, Bool.false_eq_true, if_false, Composer.take, hKey, hValue,
    hInner, List.reverse_nil, List.nil_append]
  exact hLast

/-! ## Texts -/

theorem ofText?_text (h : d.Keyed) :
    Node.ofText? (String.ofList d.text) = some d.node := by
  have hNode := @node_tokens d standardHandles (4 * d.tokens.length + 8) (by omega)
  have hHead : d.tokens.head? = some .blockMappingStart := rfl
  have hEnd : documents false [.streamEnd] d.tokens.length = [] := by
    obtain ⟨rest, hTokens⟩ := List.head?_eq_some_iff.mp hHead
    simp [hTokens, documents]
  have hDocuments : documents true d.tokens (d.tokens.length + 1) = [some d.node] := by
    rw [documents]
    simp [hHead, isBoundary, hNode, hEnd]
  rw [Node.ofText?, Node.documentsOf]
  simp only [ofText_text h, hDocuments]

end Document

end ClusterInventory.Yaml
