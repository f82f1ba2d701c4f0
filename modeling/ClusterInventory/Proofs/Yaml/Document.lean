import ClusterInventory.Proofs.Yaml.Keys

/-! # Documents of lists of texts

A document with a mapping of lists of texts, and one more list behind that, is read back as what it
was written from.
-/

namespace ClusterInventory.Yaml

open Scanner

/-- A mapping of lists of texts under a key of its own, and one more list. -/
structure Document where
  key : String
  first : String × List String
  more : List (String × List String)
  last : String × List String

namespace Document

def inner (d : Document) : List (String × List String) := d.first :: d.more

structure Keyed (d : Document) : Prop where
  key : Key d.key.toList
  inner : ∀ e ∈ d.inner, Key e.1.toList
  last : Key d.last.1.toList

def text (d : Document) : List Char :=
  d.key.toList ++ ':' :: '\n' :: (List.replicate 2 ' ' ++ (fieldText 2 d.first ++
    ((d.more.flatMap fun e => List.replicate 2 ' ' ++ fieldText 2 e) ++ fieldText 0 d.last)))

def tokens (d : Document) : List Token :=
  [.blockMappingStart, .key, .scalar true d.key, .value, .blockMappingStart] ++
    d.inner.flatMap fieldTokens ++ [.blockEnd] ++ fieldTokens d.last ++ [.blockEnd, .streamEnd]

variable {d : Document}

/-! ## Tokens -/

/-- At the end of the text the outermost mapping ends. -/
theorem step_end (index line : Nat) (tokens : List Token) :
    (ready ⟨[], index, line, 0⟩ tokens (0 : Nat) [-1]).step =
      some ⟨⟨[], index, line, 0⟩, .streamEnd :: .blockEnd :: tokens, -1, [], false, none, []⟩ := by
  have hDedent : (ready ⟨[], index, line, 0⟩ tokens (0 : Nat) [-1]).dedentTo (-1) =
      ready ⟨[], index, line, 0⟩ (.blockEnd :: tokens) (-1) [] :=
    dedentTo_ready (by decide) (by decide)
  rw [step_ready fresh_nil (Int.le_refl _)]
  simp only [dispatch, cursor_ready, finish, hDedent, dropKey_ready]
  rfl

theorem run_end (index line : Nat) (tokens : List Token) {fuel : Nat} (hFuel : 0 < fuel) :
    (ready ⟨[], index, line, 0⟩ tokens (0 : Nat) [-1]).run fuel =
      tokens.reverse ++ [.blockEnd, .streamEnd] := by
  obtain ⟨fuel, rfl⟩ : ∃ n, fuel = n + 1 := ⟨fuel - 1, by omega⟩
  rw [run, step_end]
  simp

/-- The mapping inside ends where the last list begins. -/
theorem leads_last (h : Key d.last.1.toList) (index line : Nat) (tokens : List Token) :
    ∃ index' line', Leads
      (ready ⟨fieldText 0 d.last, index, line, 0⟩ tokens (2 : Nat) [(0 : Nat), -1])
      (ready ⟨[], index', line', 0⟩ ((fieldTokens d.last).reverse ++ .blockEnd :: tokens) (0 : Nat)
        [-1]) := by
  obtain ⟨index', line', hField⟩ := leads_field h (Nat.le_refl 0) fresh_nil index line
    (.blockEnd :: tokens) [-1]
  simp only [List.replicate_zero, List.append_nil] at hField
  refine ⟨index', line', Leads.trans ?_ hField⟩
  have hFresh : Fresh (fieldText 0 d.last) := by simpa using fresh_field h 0 []
  have hColon : endsToken (listText 0 d.last.2).head? = true := by
    simpa using endsToken_listText 0 d.last.2 []
  have hDedent := @step_dedent ⟨fieldText 0 d.last, index, line, 0⟩ tokens (2 : Nat) (0 : Nat) [-1]
    hFresh (Int.ofNat_lt.mpr Nat.two_pos) (Int.le_refl _)
  exact leads_of_step_eq hDedent (step_key h hColon (Int.le_refl _)) (Nat.le_refl _)

theorem leads_inner (h : d.Keyed) :
    ∃ index' line', Leads (ready ⟨d.text, 0, 0, 0⟩ [] (-1) [])
      (ready ⟨fieldText 0 d.last, index', line', 0⟩ ((d.inner.flatMap fieldTokens).reverse ++
        .blockMappingStart :: (keyTokens d.key.toList ++ [.blockMappingStart])) (2 : Nat)
        [(0 : Nat), -1]) := by
  have hLast : Fresh (fieldText 0 d.last) := by simpa using fresh_field h.last 0 []
  have hFirst : Leads (ready ⟨d.text, 0, 0, 0⟩ [] (-1) []) (valued _ _ (0 : Nat) [-1]) :=
    leads_first h.key (by rfl) (by decide)
  have hNewline := @leads_newline _ (0 + d.key.toList.length + 1) 0 (0 + d.key.toList.length + 1)
    (keyTokens d.key.toList ++ [.blockMappingStart]) (0 : Nat) [-1] false none
    (fresh_field (h.inner d.first List.mem_cons_self) 2
      ((d.more.flatMap fun e => List.replicate 2 ' ' ++ fieldText 2 e) ++ fieldText 0 d.last))
    (gone_none _) 2
  obtain ⟨index', line', hMapping⟩ := leads_mapping d.first d.more h.inner (Nat.zero_le 2) hLast
    (Int.ofNat_lt.mpr Nat.two_pos) (0 + d.key.toList.length + 1 + 1 + 2) 1
    (keyTokens d.key.toList ++ [.blockMappingStart]) [-1]
  exact ⟨index', line', hFirst.trans (hNewline.trans hMapping)⟩

theorem run_text (h : d.Keyed) :
    (ready ⟨d.text, 0, 0, 0⟩ [] (-1) []).run (d.text.length + 2) = d.tokens := by
  obtain ⟨innerIndex, innerLine, hInner⟩ := leads_inner h
  obtain ⟨index, line, hLast⟩ := leads_last h.last innerIndex innerLine
    ((d.inner.flatMap fieldTokens).reverse ++
      .blockMappingStart :: (keyTokens d.key.toList ++ [.blockMappingStart]))
  obtain ⟨fuel, hFuel, hRun⟩ := hInner.trans hLast (d.text.length + 2) (Nat.le_refl _)
  rw [hRun, run_end _ _ _ (by omega)]
  simp [tokens, keyTokens]

/-! ## Characters -/

theorem isPrintable_fieldText {e : String × List String} (h : Key e.1.toList) (n : Nat) :
    ∀ c ∈ fieldText n e, isPrintable c = true := by
  intro c hc
  rw [fieldText, List.mem_append, List.mem_cons] at hc
  rcases hc with hKey | rfl | hList
  · exact (of_isLetter (h.letters c hKey)).2.2.2
  · decide
  · exact isPrintable_listText n e.2 c hList

theorem isAllowed_text (h : d.Keyed) : ∀ c ∈ d.text, isAllowed c = true := by
  have hSpaces : ∀ c ∈ List.replicate 2 ' ', isPrintable c = true :=
    List.all_eq_true.mp (by decide)
  intro c hc
  apply isAllowed_of_isPrintable
  simp only [text, List.mem_append, List.mem_cons, List.mem_flatMap] at hc
  rcases hc with hKey | rfl | rfl | hBlank | hFirst | ⟨e, he, hBlank | hField⟩ | hLast
  · exact (of_isLetter (h.key.letters c hKey)).2.2.2
  · decide
  · decide
  · exact hSpaces c hBlank
  · exact isPrintable_fieldText (h.inner d.first List.mem_cons_self) 2 c hFirst
  · exact hSpaces c hBlank
  · exact isPrintable_fieldText (h.inner e (List.mem_cons_of_mem d.first he)) 2 c hField
  · exact isPrintable_fieldText h.last 0 c hLast

theorem ofText_text (h : d.Keyed) :
    Token.ofText (String.ofList d.text) = d.tokens := by
  have hMark : d.text.head?.any (·.toNat = 0xFEFF) = false := by
    obtain ⟨c, w, hKey⟩ := List.exists_cons_of_ne_nil h.key.ne_nil
    have hCode := toNat_lt_of_isLetter (h.key.letters c (by simp [hKey]))
    have hNot : c.toNat ≠ 0xFEFF := by omega
    simp [text, hKey, hNot]
  have hAll : d.text.all isAllowed = true := List.all_eq_true.mpr (isAllowed_text h)
  rw [Token.ofText]
  simp only [String.toList_ofList, hMark, Bool.false_eq_true, if_false, hAll, if_true]
  exact run_text h

end Document

end ClusterInventory.Yaml
