import ClusterInventory.Proofs.Yaml.Lists

/-! # Keys

A key of small letters is a plain text that its colon turns into a key. The first key of a mapping
starts it.
-/

namespace ClusterInventory.Yaml

def isLetter (c : Char) : Bool := c.isLower || c = '_'

structure Key (w : List Char) : Prop where
  ne_nil : w ≠ []
  letters : ∀ c ∈ w, isLetter c = true
  length : w.length ≤ 1024

section Letters

variable {c : Char}

theorem toNat_lt_of_isLetter (h : isLetter c = true) : c.toNat < 0x7B := by
  rw [isLetter, Bool.or_eq_true, decide_eq_true_eq] at h
  rcases h with hLower | rfl
  · obtain ⟨-, hUpper⟩ := Bool.and_eq_true_iff.mp hLower
    exact Nat.lt_succ_of_le (UInt32.le_iff_toNat_le.mp (of_decide_eq_true hUpper))
  · decide

theorem isLetter_ofNat : ∀ n < 0x7B, isLetter (Char.ofNat n) = true →
    isBlank (Char.ofNat n) = false ∧ isBreak (Char.ofNat n) = false ∧
      isIndicator (Char.ofNat n) = false ∧ isPrintable (Char.ofNat n) = true := by
  decide

theorem of_isLetter (h : isLetter c = true) :
    isBlank c = false ∧ isBreak c = false ∧ isIndicator c = false ∧ isPrintable c = true := by
  have hCode := isLetter_ofNat c.toNat (toNat_lt_of_isLetter h)
  rw [Char.ofNat_toNat] at hCode
  exact hCode h

theorem solid_of_isLetter (h : isLetter c = true) : Solid c :=
  ⟨(of_isLetter h).1, (of_isLetter h).2.1⟩

end Letters

namespace Key

variable {w : List Char}

theorem word (h : Key w) : Word w := by
  refine ⟨h.ne_nil, fun c hc => solid_of_isLetter (h.letters c hc), ?_⟩
  intro hLast
  exact absurd (h.letters ':' (List.mem_of_getLast? hLast)) (by decide)

theorem head (h : Key w) : ∀ c ∈ w.head?, isLetter c = true := fun c hc =>
  h.letters c (List.mem_of_mem_head? hc)

theorem startsPlain (h : Key w) : Scanner.StartsPlain w := by
  refine ⟨?_, h.ne_nil, fun c hc => (of_isLetter (h.head c hc)).2.2.1, ?_⟩
  · exact fun c hc => solid_of_isLetter (h.head c hc)
  · intro c hc hMark
    have hLetter := h.head c hc
    rcases hMark with rfl | rfl | rfl <;> exact absurd hLetter (by decide)

theorem fresh (h : Key w) (rest : List Char) : Scanner.Fresh (w ++ rest) := by
  apply (h.startsPlain.append rest).fresh
  obtain ⟨c, w, rfl⟩ := List.exists_cons_of_ne_nil h.ne_nil
  exact fun d hd => (of_isLetter (h.head d hd)).2.2.2

theorem atDocumentMark (h : Key w) (rest : List Char) (index line column : Nat) :
    Cursor.atDocumentMark ⟨w ++ rest, index, line, column⟩ = false := by
  obtain ⟨c, w, rfl⟩ := List.exists_cons_of_ne_nil h.ne_nil
  have hLetter := h.letters c List.mem_cons_self
  have hDash : c ≠ '-' := by
    rintro rfl
    exact absurd hLetter (by decide)
  have hDot : c ≠ '.' := by
    rintro rfl
    exact absurd hLetter (by decide)
  simp [Cursor.atDocumentMark, Ne.symm hDash, Ne.symm hDot]

end Key

namespace Scanner

section Keys

variable {w rest : List Char} {index line column : Nat} {tokens : List Token} {indent : Int}
  {indents : List Int}

theorem step_key (h : Key w) (hRest : endsToken rest.head? = true) (hIndent : indent ≤ column) :
    (ready ⟨w ++ ':' :: rest, index, line, column⟩ tokens indent indents).step =
      some ⟨⟨':' :: rest, index + w.length, line, column + w.length⟩,
        .scalar true (String.ofList w) :: tokens, indent, indents, false,
        some (keyAt ⟨w ++ ':' :: rest, index, line, column⟩ tokens indent), []⟩ := by
  have hHash : w.head? ≠ some '#' := by
    intro hHash
    exact absurd (h.head '#' hHash) (by decide)
  apply step_plain (h.startsPlain.append _) (h.fresh _) (h.atDocumentMark _ _ _ _) hIndent
  exact scanPlain_key h.word hHash hRest (h.atDocumentMark _ _ _ _) _

theorem fresh_colon (rest : List Char) : Fresh (':' :: rest) :=
  ⟨startsSolid_cons.mpr ⟨by decide, by decide⟩, by simp, by simp⟩

/-- The colon of a key that is not far behind. -/
theorem step_colon {t : Token} {k : PossibleKey} (hRest : endsToken rest.head? = true)
    (hLine : line ≤ k.line) (hIndex : index ≤ k.index + 1024) (hIndent : indent ≤ column) :
    step ⟨⟨':' :: rest, index, line, column⟩, t :: tokens, indent, indents, false, some k, []⟩ =
      valueMark ⟨⟨':' :: rest, index, line, column⟩, t :: tokens, indent, indents, false, some k,
        []⟩ := by
  have hSettle :
      settle ⟨⟨':' :: rest, index, line, column⟩, t :: tokens, indent, indents, false, some k, []⟩ =
        some ⟨⟨':' :: rest, index, line, column⟩, t :: tokens, indent, indents, false, some k,
          []⟩ := by
    have hSkip := @skipBlanks_blanks _ index line column (t :: tokens) indent indents false (some k)
      (fresh_colon rest) [] 0
    have hNear : ¬(k.line < line ∨ k.index + 1024 < index) := by omega
    refine (congrArg dropStale (hSkip _)).trans ?_
    simp [dropStale, hNear]
  have hMark : Cursor.atDocumentMark ⟨':' :: rest, index, line, column⟩ = false := by
    simp [Cursor.atDocumentMark]
  have hEnds : Cursor.endsAt ⟨':' :: rest, index, line, column⟩ 1 = true := by
    simpa [Cursor.endsAt, List.head?_eq_getElem?] using hRest
  rw [step, hSettle, Option.bind_some, dedentTo_of_le hIndent]
  simp [dispatch, hMark, hEnds]

/-- The tokens of a key, the last one first. -/
def keyTokens (w : List Char) : List Token := [.value, .scalar true (String.ofList w), .key]

theorem insert_before (s : Scanner) {t : Token} (hTokens : s.tokens = t :: tokens) (new : Token) :
    s.insert tokens.length new = { s with tokens := t :: new :: tokens } := by
  simp [insert, hTokens]

theorem insert_before_two (s : Scanner) {t t' : Token} (hTokens : s.tokens = t :: t' :: tokens)
    (new : Token) :
    s.insert tokens.length new = { s with tokens := t :: t' :: new :: tokens } := by
  have hAfter : tokens.length + 1 + 1 - tokens.length = 2 := by omega
  simp [insert, hTokens, hAfter]

theorem leads_key (h : Key w) (hRest : endsToken rest.head? = true) {k : Nat} :
    Leads (ready ⟨w ++ ':' :: rest, index, line, k⟩ tokens k indents)
      (valued ⟨rest, index + w.length + 1, line, k + w.length + 1⟩ (keyTokens w ++ tokens) k
        indents) := by
  have hLength := List.length_pos_iff.mpr h.ne_nil
  have hNear := h.length
  apply (leads_of_step (step_key h hRest (Int.le_refl _)) (by simp) (by simp; omega)).trans
  refine leads_of_step ?_ (by simp [valued, keyTokens]) (by simp [valued])
  rw [step_colon hRest (Nat.le_refl line) (by simp only [keyAt]; omega) (by omega), valueMark]
  simp only [keyAt]
  rw [insert_before _ rfl, indentTo_of_le (by simp)]
  rfl

/-- The first key of a mapping. -/
theorem leads_first (h : Key w) (hRest : endsToken rest.head? = true) {k : Nat}
    (hIndent : indent < k) :
    Leads (ready ⟨w ++ ':' :: rest, index, line, k⟩ tokens indent indents)
      (valued ⟨rest, index + w.length + 1, line, k + w.length + 1⟩
        (keyTokens w ++ .blockMappingStart :: tokens) k (indent :: indents)) := by
  have hLength := List.length_pos_iff.mpr h.ne_nil
  have hNear := h.length
  apply (leads_of_step (step_key h hRest (Int.le_of_lt hIndent)) (by simp) (by simp; omega)).trans
  refine leads_of_step ?_ (by simp [valued, keyTokens]) (by simp [valued])
  rw [step_colon hRest (Nat.le_refl line) (by simp only [keyAt]; omega) (by omega), valueMark]
  simp only [keyAt]
  rw [insert_before _ rfl, indentTo_of_lt rfl hIndent, insert_before_two _ rfl]
  rfl

end Keys

/-! ## Fields -/

section Fields

variable {rest : List Char} {e : String × List String} {k m : Nat}

def fieldText (indent : Nat) (e : String × List String) : List Char :=
  e.1.toList ++ ':' :: listText indent e.2

def fieldTokens (e : String × List String) : List Token :=
  [.key, .scalar true e.1, .value] ++ listTokens e.2

theorem endsToken_listText (indent : Nat) (l : List String) (rest : List Char) :
    endsToken (listText indent l ++ rest).head? = true := by
  cases l with
  | nil => rfl
  | cons s l => rfl

theorem reverse_fieldTokens (e : String × List String) (tokens : List Token) :
    (fieldTokens e).reverse ++ tokens =
      (listTokens e.2).reverse ++ (keyTokens e.1.toList ++ tokens) := by
  simp [fieldTokens, keyTokens]

theorem leads_field (h : Key e.1.toList) (hM : m ≤ k) (hRest : Fresh rest) (index line : Nat)
    (tokens : List Token) (indents : List Int) :
    ∃ index' line', Leads
      (ready ⟨fieldText k e ++ (List.replicate m ' ' ++ rest), index, line, k⟩ tokens k indents)
      (ready ⟨rest, index', line', m⟩ ((fieldTokens e).reverse ++ tokens) k indents) := by
  have hWide (n : Nat) : k ≤ k + n + 1 := by omega
  obtain ⟨index', line', hList⟩ := leads_list e.2 (hWide e.1.toList.length) hM hRest
    (index + e.1.toList.length + 1) line (keyTokens e.1.toList ++ tokens) indents
  refine ⟨index', line', ?_⟩
  rw [fieldText, List.append_assoc, List.cons_append, reverse_fieldTokens]
  exact (leads_key h (endsToken_listText k e.2 _)).trans hList

/-- The first field of a mapping. -/
theorem leads_first_field (h : Key e.1.toList) (hM : m ≤ k) (hRest : Fresh rest) {indent : Int}
    (hIndent : indent < k) (index line : Nat) (tokens : List Token) (indents : List Int) :
    ∃ index' line', Leads
      (ready ⟨fieldText k e ++ (List.replicate m ' ' ++ rest), index, line, k⟩ tokens indent
        indents)
      (ready ⟨rest, index', line', m⟩ ((fieldTokens e).reverse ++ .blockMappingStart :: tokens) k
        (indent :: indents)) := by
  have hWide (n : Nat) : k ≤ k + n + 1 := by omega
  obtain ⟨index', line', hList⟩ := leads_list e.2 (hWide e.1.toList.length) hM hRest
    (index + e.1.toList.length + 1) line (keyTokens e.1.toList ++ .blockMappingStart :: tokens)
    (indent :: indents)
  refine ⟨index', line', ?_⟩
  rw [fieldText, List.append_assoc, List.cons_append, reverse_fieldTokens]
  exact (leads_first h (endsToken_listText k e.2 _) hIndent).trans hList

theorem fresh_field (h : Key e.1.toList) (indent : Nat) (rest : List Char) :
    Fresh (fieldText indent e ++ rest) := by
  rw [fieldText, List.append_assoc]
  exact h.fresh _

theorem leads_fields (e : String × List String) (es : List (String × List String))
    (h : ∀ e' ∈ e :: es, Key e'.1.toList) (hM : m ≤ k) (hRest : Fresh rest) (index line : Nat)
    (tokens : List Token) (indents : List Int) :
    ∃ index' line', Leads
      (ready ⟨fieldText k e ++ ((es.flatMap fun e => List.replicate k ' ' ++ fieldText k e) ++
        (List.replicate m ' ' ++ rest)), index, line, k⟩ tokens k indents)
      (ready ⟨rest, index', line', m⟩ (((e :: es).flatMap fieldTokens).reverse ++ tokens) k
        indents) := by
  induction es generalizing e index line tokens with
  | nil =>
    simpa using leads_field (h e List.mem_cons_self) hM hRest index line tokens indents
  | cons e' es ih =>
    obtain ⟨fieldIndex, fieldLine, hField⟩ := leads_field (h e List.mem_cons_self) (Nat.le_refl k)
      (fresh_field (h e' (by simp)) k ((es.flatMap fun e => List.replicate k ' ' ++ fieldText k e) ++
        (List.replicate m ' ' ++ rest))) index line tokens indents
    obtain ⟨index', line', hFields⟩ := ih e' (fun d hd => h d (List.mem_cons_of_mem e hd))
      fieldIndex fieldLine ((fieldTokens e).reverse ++ tokens)
    refine ⟨index', line', ?_⟩
    simpa using hField.trans hFields

/-- All fields of a mapping, up to the start of a line outside of it. -/
theorem leads_mapping (e : String × List String) (es : List (String × List String))
    (h : ∀ e' ∈ e :: es, Key e'.1.toList) (hM : m ≤ k) (hRest : Fresh rest) {indent : Int}
    (hIndent : indent < k) (index line : Nat) (tokens : List Token) (indents : List Int) :
    ∃ index' line', Leads
      (ready ⟨fieldText k e ++ ((es.flatMap fun e => List.replicate k ' ' ++ fieldText k e) ++
        (List.replicate m ' ' ++ rest)), index, line, k⟩ tokens indent indents)
      (ready ⟨rest, index', line', m⟩
        (((e :: es).flatMap fieldTokens).reverse ++ .blockMappingStart :: tokens) k
        (indent :: indents)) := by
  cases es with
  | nil =>
    have hFirst := h e List.mem_cons_self
    simpa using leads_first_field hFirst hM hRest hIndent index line tokens indents
  | cons e' es =>
    obtain ⟨fieldIndex, fieldLine, hField⟩ := leads_first_field (h e List.mem_cons_self)
      (Nat.le_refl k) (fresh_field (h e' (by simp)) k
        ((es.flatMap fun e => List.replicate k ' ' ++ fieldText k e) ++
          (List.replicate m ' ' ++ rest))) hIndent index line tokens indents
    obtain ⟨index', line', hFields⟩ := leads_fields e' es
      (fun d hd => h d (List.mem_cons_of_mem e hd)) hM hRest fieldIndex fieldLine
      ((fieldTokens e).reverse ++ .blockMappingStart :: tokens) (indent :: indents)
    refine ⟨index', line', ?_⟩
    simpa using hField.trans hFields

end Fields

end Scanner

end ClusterInventory.Yaml
