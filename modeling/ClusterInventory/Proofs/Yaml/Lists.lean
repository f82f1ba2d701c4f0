import ClusterInventory.Proofs.Yaml.Scanning

/-! # Lists of texts

The entries of a list of texts stand at the indentation of its key, one after the other. A list
without entries stands behind its key.
-/

namespace ClusterInventory.Yaml

def itemText (indent : Nat) (s : String) : List Char :=
  '-' :: ' ' :: (textLine (indent + 2) s).toList

def listText (indent : Nat) : List String → List Char
  | [] => [' ', '[', ']', '\n']
  | l => '\n' :: l.flatMap fun s => List.replicate indent ' ' ++ itemText indent s

namespace Scanner

def itemTokens (s : String) : List Token := [.blockEntry, textToken s]

def listTokens : List String → List Token
  | [] => [.flowSequenceStart, .flowSequenceEnd]
  | l => l.flatMap itemTokens

def valued (c : Cursor) (tokens : List Token) (indent : Int) (indents : List Int) : Scanner :=
  ⟨c, tokens, indent, indents, false, none, []⟩

def opened (c : Cursor) (tokens : List Token) (indent : Int) (indents : List Int) : Scanner :=
  ⟨c, tokens, indent, indents, true, none, [none]⟩

section Items

variable {rest : List Char} {k m : Nat}

theorem fresh_item (indent : Nat) (s : String) (rest : List Char) :
    Fresh (itemText indent s ++ rest) :=
  ⟨startsSolid_cons.mpr ⟨by decide, by decide⟩, by simp [itemText], by simp [itemText]⟩

theorem fresh_textLine (indent : Nat) (s : String) (rest : List Char) :
    Fresh ((textLine indent s).toList ++ rest) := by
  unfold textLine
  cases hStyle : styleOf false s with
  | plain =>
    have hPlain := of_styleOf_eq_plain hStyle
    have hStart := startsPlain_of_allowsPlain hPlain
    rw [String.toList_append, List.append_assoc]
    apply (hStart.append _).fresh
    obtain ⟨c, cs, hText⟩ := List.exists_cons_of_ne_nil hStart.ne_nil
    intro d hd
    rw [hText] at hd
    exact isPrintable_of_allowsPlain hPlain (by simp_all)
  | single => simpa [singleQuoted] using fresh_quote (.inl rfl) _
  | double => simpa [doubleQuoted] using fresh_quote (.inr rfl) _
  | literal => simpa [toList_literal] using fresh_block _

theorem step_entry {tokens : List Token} {indents : List Int} (index line : Nat) :
    (ready ⟨'-' :: ' ' :: rest, index, line, k⟩ tokens k indents).step =
      some (ready ⟨' ' :: rest, index + 1, line, k + 1⟩ (.blockEntry :: tokens) k indents) := by
  have hFresh : Fresh ('-' :: ' ' :: rest) :=
    ⟨startsSolid_cons.mpr ⟨by decide, by decide⟩, by simp, by simp⟩
  have hMark : Cursor.atDocumentMark ⟨'-' :: ' ' :: rest, index, line, k⟩ = false := by
    simp [Cursor.atDocumentMark]
  have hEnds : Cursor.endsAt ⟨'-' :: ' ' :: rest, index, line, k⟩ 1 = true := by
    simp [Cursor.endsAt, endsToken, isBlank]
  have hDispatch : (ready ⟨'-' :: ' ' :: rest, index, line, k⟩ tokens k indents).dispatch =
      (ready ⟨'-' :: ' ' :: rest, index, line, k⟩ tokens k indents).blockEntry := by
    simp [dispatch, hMark, hEnds]
  rw [step_ready hFresh (Int.le_refl _), hDispatch, blockEntry, if_neg (by simp [ready])]
  simp only [cursor_ready]
  rw [indentTo_of_le (by simp), dropKey_ready]
  rfl

theorem leads_item (s : String) (hM : m ≤ k) (hRest : Fresh rest) (index line : Nat)
    (tokens : List Token) (indents : List Int) :
    ∃ index' line', Leads
      (ready ⟨itemText k s ++ (List.replicate m ' ' ++ rest), index, line, k⟩ tokens k indents)
      (ready ⟨rest, index', line', m⟩ ((itemTokens s).reverse ++ tokens) k indents) := by
  obtain ⟨index', line', hText⟩ := leads_text s (Nat.lt_add_of_pos_right Nat.two_pos) hM hRest
    (index + 2) line (.blockEntry :: tokens) indents
  refine ⟨index', line', ?_⟩
  apply (leads_of_step (step_entry index line) (by simp [ready]) (by simp)).trans
  exact (leads_blanks (fresh_textLine (k + 2) s _) 1).trans hText

theorem leads_items (s : String) (l : List String) (hM : m ≤ k) (hRest : Fresh rest)
    (index line : Nat) (tokens : List Token) (indents : List Int) :
    ∃ index' line', Leads
      (ready ⟨itemText k s ++ ((l.flatMap fun s => List.replicate k ' ' ++ itemText k s) ++
        (List.replicate m ' ' ++ rest)), index, line, k⟩ tokens k indents)
      (ready ⟨rest, index', line', m⟩ (((s :: l).flatMap itemTokens).reverse ++ tokens) k
        indents) := by
  induction l generalizing s index line tokens with
  | nil => simpa using leads_item s hM hRest index line tokens indents
  | cons s' l ih =>
    obtain ⟨itemIndex, itemLine, hItem⟩ := leads_item s (Nat.le_refl k) (fresh_item k s'
      ((l.flatMap fun s => List.replicate k ' ' ++ itemText k s) ++ (List.replicate m ' ' ++ rest)))
      index line tokens indents
    obtain ⟨index', line', hItems⟩ := ih s' itemIndex itemLine ((itemTokens s).reverse ++ tokens)
    refine ⟨index', line', ?_⟩
    simpa using hItem.trans hItems

theorem fresh_bracket {bracket : Char} (h : bracket = '[' ∨ bracket = ']') (rest : List Char) :
    Fresh (bracket :: rest) := by
  refine ⟨startsSolid_cons.mpr ?_, ?_, ?_⟩
  · rcases h with rfl | rfl <;> exact ⟨by decide, by decide⟩
  · rcases h with rfl | rfl <;> simp
  · rcases h with rfl | rfl <;> simp

theorem step_open {column : Nat} (hColumn : k ≤ column) (index line : Nat) (tokens : List Token)
    (indents : List Int) :
    (valued ⟨' ' :: '[' :: rest, index, line, column⟩ tokens k indents).step =
      some (opened ⟨rest, index + 2, line, column + 2⟩ (.flowSequenceStart :: tokens) k
        indents) := by
  have hSettle : (valued ⟨' ' :: '[' :: rest, index, line, column⟩ tokens k indents).settle =
      some (valued ⟨'[' :: rest, index + 1, line, column + 1⟩ tokens k indents) := by
    have hSkip := @skipBlanks_blanks _ index line column tokens k indents false none
      (fresh_bracket (.inl rfl) rest) [] 1
    exact (congrArg dropStale (hSkip _)).trans (dropStale_gone (gone_none line))
  have hMark : Cursor.atDocumentMark ⟨'[' :: rest, index + 1, line, column + 1⟩ = false :=
    atDocumentMark_of_column (Nat.succ_ne_zero column)
  have hDispatch : (valued ⟨'[' :: rest, index + 1, line, column + 1⟩ tokens k indents).dispatch =
      (valued ⟨'[' :: rest, index + 1, line, column + 1⟩ tokens k indents).openFlow
        .flowSequenceStart := by
    simp [dispatch, valued, hMark]
  rw [step, hSettle, Option.bind_some, dedentTo_of_le (by simp only [valued]; omega), hDispatch]
  rfl

theorem step_close {column : Nat} (hColumn : column ≠ 0) (index line : Nat) (tokens : List Token)
    (indent : Int) (indents : List Int) :
    (opened ⟨']' :: rest, index, line, column⟩ tokens indent indents).step =
      some (valued ⟨rest, index + 1, line, column + 1⟩ (.flowSequenceEnd :: tokens) indent
        indents) := by
  have hSettle : (opened ⟨']' :: rest, index, line, column⟩ tokens indent indents).settle =
      some (opened ⟨']' :: rest, index, line, column⟩ tokens indent indents) := by
    have hSkip := @skipBlanks_blanks _ index line column tokens indent indents true none
      (fresh_bracket (.inr rfl) rest) [none] 0
    exact congrArg dropStale (hSkip _)
  have hMark : Cursor.atDocumentMark ⟨']' :: rest, index, line, column⟩ = false :=
    atDocumentMark_of_column hColumn
  have hDispatch : (opened ⟨']' :: rest, index, line, column⟩ tokens indent indents).dispatch =
      (opened ⟨']' :: rest, index, line, column⟩ tokens indent indents).closeFlow
        .flowSequenceEnd := by
    simp [dispatch, opened, hMark]
  rw [step, hSettle, Option.bind_some, dedentTo, if_pos (by rfl), hDispatch]
  rfl

theorem leads_list (l : List String) {column : Nat} (hColumn : k ≤ column) (hM : m ≤ k)
    (hRest : Fresh rest) (index line : Nat) (tokens : List Token) (indents : List Int) :
    ∃ index' line', Leads
      (valued ⟨listText k l ++ (List.replicate m ' ' ++ rest), index, line, column⟩ tokens k indents)
      (ready ⟨rest, index', line', m⟩ ((listTokens l).reverse ++ tokens) k indents) := by
  cases l with
  | nil =>
    refine ⟨index + 3 + 1 + m, line + 1, ?_⟩
    apply (leads_of_step (step_open hColumn index line tokens indents) (by simp [opened]) ?_).trans
    · apply (leads_of_step (step_close (Nat.succ_ne_zero (column + 1)) (index + 2) line
        (.flowSequenceStart :: tokens) k indents) (by simp [valued]) ?_).trans
      · exact leads_newline hRest (gone_none _) m
      · simp [opened, valued]
    · simp [opened, valued]
  | cons s l =>
    obtain ⟨index', line', hItems⟩ := leads_items s l hM hRest (index + 1 + k) (line + 1) tokens
      indents
    have hNewline := @leads_newline _ index line column tokens k indents false none
      (fresh_item k s ((l.flatMap fun s => List.replicate k ' ' ++ itemText k s) ++
        (List.replicate m ' ' ++ rest))) (gone_none _) k
    refine ⟨index', line', ?_⟩
    simpa [listText, listTokens, valued] using hNewline.trans hItems

end Items

end Scanner

/-! ## Characters -/

theorem isAllowed_of_isPrintable {c : Char} (h : isPrintable c = true) : isAllowed c = true := by
  simp only [isPrintable, isAllowed, Bool.or_eq_true, Bool.and_eq_true, decide_eq_true_eq,
    bne_iff_ne] at h ⊢
  omega

theorem isPrintable_chomping (cs : List Char) :
    ∀ c ∈ (chomping cs).toList, isPrintable c = true := by
  rcases chomping_cases cs with h | h | h <;> rw [h] <;> exact List.all_eq_true.mp (by decide)

theorem isPrintable_literalText {n : Nat} {cs : List Char}
    (h : ∀ c ∈ cs, isPrintable c = true) : ∀ c ∈ literalText n cs, isPrintable c = true := by
  have hBody : ∀ c ∈ literalBody n true cs, isPrintable c = true := by
    intro c hc
    rcases mem_literalBody hc with rfl | hText
    · decide
    · exact h c hText
  have hHint : ∀ c ∈ hintText (isHinted cs), isPrintable c = true := by
    cases isHinted cs <;> exact List.all_eq_true.mp (by decide)
  have hEnd : ∀ c ∈ (if cs.getLast?.any isBreak then [] else ['\n']), isPrintable c = true := by
    split <;> exact List.all_eq_true.mp (by decide)
  have hNewline : isPrintable '\n' = true := by decide
  intro c hc
  simp only [literalText, List.mem_append, List.mem_cons] at hc
  rcases hc with hc | hc | rfl | hc | hc
  · exact hHint c hc
  · exact isPrintable_chomping cs c hc
  · exact hNewline
  · exact hBody c hc
  · exact hEnd c hc

theorem isPrintable_singleQuoted {n : Nat} {s : String}
    (h : ∀ c ∈ s.toList, isPrintable c = true) :
    ∀ c ∈ (singleQuoted n s).toList, isPrintable c = true := by
  intro c hc
  rcases mem_singleQuoted hc with rfl | rfl | hText
  · decide
  · decide
  · exact h c hText

/-- A written text holds no characters but printable ones. -/
theorem isPrintable_textLine (n : Nat) (s : String) :
    ∀ c ∈ (textLine n s).toList, isPrintable c = true := by
  have hLine {text : String} (h : ∀ c ∈ text.toList, isPrintable c = true) :
      ∀ c ∈ (text ++ "\n").toList, isPrintable c = true := by
    intro c hc
    rw [String.toList_append, List.mem_append] at hc
    rcases hc with hText | hEnd
    · exact h c hText
    · obtain rfl : c = '\n' := by simpa using hEnd
      decide
  unfold textLine
  cases hStyle : styleOf false s with
  | plain =>
    have hPlain := Scanner.of_styleOf_eq_plain hStyle
    exact hLine fun c hc => Scanner.isPrintable_of_allowsPlain hPlain hc
  | single =>
    obtain ⟨hFeed, hAllows⟩ := Scanner.of_styleOf_eq_single hStyle
    have hSingle := Scanner.single_of_allowsSingle hFeed hAllows
    exact hLine (isPrintable_singleQuoted hSingle.isPrintable)
  | double => exact hLine fun c hc => (isPrintable_isBreak_of_mem_doubleQuoted hc).1
  | literal =>
    have hLiteral := Scanner.of_styleOf_eq_literal hStyle
    simp only [allowsLiteral, Bool.and_eq_true, Bool.not_eq_true'] at hLiteral
    have hPipe : isPrintable '|' = true := by decide
    intro c hc
    rw [toList_literal, List.mem_cons] at hc
    rcases hc with rfl | hText
    · exact hPipe
    · exact isPrintable_literalText (fun d hd => isPrintable_of_isSpecial hLiteral.1.2 hd) c hText

theorem isPrintable_listText (n : Nat) (l : List String) :
    ∀ c ∈ listText n l, isPrintable c = true := by
  cases l with
  | nil =>
    have hBrackets : [' ', '[', ']', '\n'].all isPrintable = true := by decide
    exact List.all_eq_true.mp hBrackets
  | cons s l =>
    have hDash : isPrintable '-' = true := by decide
    have hSpace : isPrintable ' ' = true := by decide
    have hItem (s : String) : ∀ c ∈ List.replicate n ' ' ++ itemText n s, isPrintable c = true := by
      intro c hc
      rw [itemText, List.mem_append, List.mem_cons, List.mem_cons] at hc
      rcases hc with hBlank | rfl | rfl | hText
      · rw [List.eq_of_mem_replicate hBlank]
        decide
      · exact hDash
      · exact hSpace
      · exact isPrintable_textLine (n + 2) s c hText
    intro c hc
    rw [listText, List.mem_cons, List.mem_flatMap] at hc
    · rcases hc with rfl | ⟨s, -, hItemText⟩
      · decide
      · exact hItem s c hItemText
    · nofun

end ClusterInventory.Yaml
