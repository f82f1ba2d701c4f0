import ClusterInventory.Proofs.Yaml.Gap

/-! # Plain texts

A text that may be plain is made of words with blanks between them. No word ends with a colon and
none but the first begins with a number sign, so that the text is read as it is, up to the end of
its line.
-/

namespace ClusterInventory.Yaml

structure Word (w : List Char) : Prop where
  ne_nil : w ≠ []
  solid : ∀ c ∈ w, Solid c
  last : w.getLast? ≠ some ':'

inductive Words : List Char → Prop where
  | word {w : List Char} : Word w → Words w
  | more {w rest : List Char} {count : Nat} : Word w → 0 < count → rest.head? ≠ some '#' →
      Words rest → Words (w ++ (List.replicate count ' ' ++ rest))

/-! ## Writing -/

theorem hasIndicator_cons (c : Char) (rest : List Char) :
    hasIndicator (c :: rest) = (c = ':' && endsToken rest.head? ||
      rest.head? == some '#' && endsToken (some c) || hasIndicator rest) := by
  cases rest with
  | nil => simp [hasIndicator]
  | cons d rest =>
    have hHash : (some d == some '#') = decide (d = '#') := by
      rw [Bool.eq_iff_iff]
      simp
    simp only [hasIndicator, List.tail_cons, List.map_cons, List.cons_append, List.zip_cons_cons,
      List.any_cons, List.head?_cons, hHash]
    ac_rfl

theorem hasIndicator_of_append {front rest : List Char} (h : hasIndicator (front ++ rest) = false) :
    hasIndicator rest = false := by
  induction front with
  | nil => exact h
  | cons c front ih =>
    rw [List.cons_append, hasIndicator_cons, Bool.or_eq_false_iff] at h
    exact ih h.2

theorem not_colon_of_hasIndicator {front rest : List Char} {c : Char}
    (h : hasIndicator (front ++ c :: rest) = false) (hEnds : endsToken rest.head? = true) :
    c ≠ ':' := by
  have hHere := hasIndicator_of_append h
  rw [hasIndicator_cons] at hHere
  rintro rfl
  simp [hEnds] at hHere

theorem not_hash_of_hasIndicator {front rest : List Char}
    (h : hasIndicator (front ++ ' ' :: rest) = false) : rest.head? ≠ some '#' := by
  have hHere := hasIndicator_of_append h
  rw [hasIndicator_cons] at hHere
  intro hHash
  simp [hHash, endsToken, isBlank] at hHere

/-- The last character of a word at whose end nothing follows, or a blank. -/
theorem getLast?_ne_colon {w rest : List Char} (h : hasIndicator (w ++ rest) = false)
    (hEnds : endsToken rest.head? = true) : w.getLast? ≠ some ':' := by
  intro hLast
  obtain ⟨front, rfl⟩ := List.getLast?_eq_some_iff.mp hLast
  rw [List.append_assoc, List.singleton_append] at h
  exact not_colon_of_hasIndicator h hEnds rfl

theorem words_of_hasIndicator (cs : List Char) (hSolid : ∀ c ∈ cs, c ≠ ' ' → Solid c)
    (hNonempty : cs ≠ []) (hFirst : cs.head? ≠ some ' ') (hLast : cs.getLast? ≠ some ' ')
    (hIndicator : hasIndicator cs = false) : Words cs := by
  rcases exists_word cs with hWord | ⟨w, count, rest, rfl, hWord, hRest⟩
  · rw [← List.append_nil cs] at hIndicator
    exact .word ⟨hNonempty, fun c hc => hSolid c hc (hWord c hc), getLast?_ne_colon hIndicator rfl⟩
  · have hNil : w ≠ [] := by
      rintro rfl
      simp [List.replicate_succ] at hFirst
    have hEnd := getLast?_ne_colon hIndicator (by simp [List.replicate_succ, endsToken, isBlank])
    have hSplit : hasIndicator ((w ++ List.replicate count ' ') ++ ' ' :: rest) = false := by
      simpa [List.replicate_succ', List.append_assoc] using hIndicator
    have hRestNil : rest ≠ [] := by
      rintro rfl
      simp [List.replicate_succ'] at hLast
    have hLength := List.length_pos_iff.mpr hNil
    refine .more ⟨hNil, fun c hc => hSolid c (List.mem_append_left _ hc) (hWord c hc), hEnd⟩
      (Nat.succ_pos count) (not_hash_of_hasIndicator hSplit)
      (words_of_hasIndicator rest ?_ hRestNil hRest ?_
        (hasIndicator_of_append (hasIndicator_of_append hIndicator)))
    · exact fun c hc => hSolid c (by simp [hc])
    · rw [← List.append_assoc, List.getLast?_append,
        List.getLast?_eq_some_getLast hRestNil] at hLast
      rwa [List.getLast?_eq_some_getLast hRestNil]
termination_by cs.length
decreasing_by
  subst_vars
  simp
  omega

/-! ## Reading -/

theorem plainWord_append {w : List Char} (hSolid : ∀ c ∈ w, Solid c) (hLast : w.getLast? ≠ some ':')
    (acc rest : List Char) :
    plainWord false acc (w ++ rest) = plainWord false (w.reverse ++ acc) rest := by
  induction w generalizing acc with
  | nil => rfl
  | cons c w ih =>
    obtain ⟨hBlank, hBreak⟩ := hSolid c List.mem_cons_self
    have hColon : ¬(c = ':' ∧ endsToken (w ++ rest).head? = true) := by
      rintro ⟨rfl, hEnds⟩
      cases w with
      | nil => exact hLast rfl
      | cons d w =>
        have hNext := endsToken_of_solid (hSolid d (by simp))
        simp only [List.cons_append, List.head?_cons, hNext, Bool.false_eq_true] at hEnds
    have hLater : w.getLast? ≠ some ':' := by
      cases w with
      | nil => nofun
      | cons d w => simpa using hLast
    rw [List.cons_append, plainWord]
    simp only [hBlank, hBreak, hColon, Bool.false_and, Bool.or_self, Bool.and_eq_true,
      decide_eq_true_eq, Bool.false_eq_true, if_false]
    rw [ih (fun d hd => hSolid d (List.mem_cons_of_mem c hd)) hLater]
    simp

theorem plainWord_end {rest : List Char} (h : endsToken rest.head? = true) (acc : List Char) :
    plainWord false acc rest = some acc.reverse := by
  cases rest with
  | nil => rfl
  | cons c rest =>
    have hEnds : isBlank c || isBreak c := h
    rw [plainWord, if_pos hEnds]

theorem plainWord_colon {rest : List Char} (h : endsToken rest.head? = true) (acc : List Char) :
    plainWord false acc (':' :: rest) = some acc.reverse := by
  have hSolid : (isBlank ':' || isBreak ':') = false := by decide
  simp [plainWord, hSolid, h]

/-- A word and the text after it, which does not go on with the word. -/
theorem plainWord_of_word {w : List Char} (h : Word w) {rest : List Char}
    (hRest : endsToken rest.head? = true) : plainWord false [] (w ++ rest) = some w := by
  rw [plainWord_append h.solid h.last, plainWord_end hRest]
  simp

theorem atDocumentMark_of_column {c : Cursor} (h : c.column ≠ 0) : c.atDocumentMark = false := by
  simp [Cursor.atDocumentMark, h]

theorem Words.ne_nil {cs : List Char} (h : Words cs) : cs ≠ [] := by
  cases h with
  | word hWord => exact hWord.ne_nil
  | more hWord => simp [hWord.ne_nil]

theorem Word.startsSolid {w : List Char} (h : Word w) (rest : List Char) :
    StartsSolid (w ++ rest) := by
  cases w with
  | nil => exact absurd rfl h.ne_nil
  | cons c w => exact startsSolid_cons.mpr (h.solid c List.mem_cons_self)

theorem Words.startsSolid {cs : List Char} (h : Words cs) (rest : List Char) :
    StartsSolid (cs ++ rest) := by
  cases h with
  | word hWord => exact hWord.startsSolid rest
  | more hWord =>
    rw [List.append_assoc]
    exact hWord.startsSolid _

section ScanPlain

variable {cs rest : List Char} {index line column leftmost m : Nat}

/-- One word of a plain text and the gap after it. -/
theorem scanPlain_word {w : List Char} (hWord : Word w) (hHash : w.head? ≠ some '#')
    (hRest : rest ≠ []) (hEnds : endsToken rest.head? = true) (hColumn : column ≠ 0) {g' : Gap}
    {c' : Cursor} (hGap : takeGap leftmost {} ⟨rest, index + w.length, line, column + w.length⟩
      (rest.length + 1) = some (g', c')) (text : List Char) (g : Gap) (fuel : Nat) :
    scanPlain false leftmost text g ⟨w ++ rest, index, line, column⟩ (fuel + 1) =
      if c'.column < leftmost then some (text ++ g.text ++ w, g'.broken, c')
      else scanPlain false leftmost (text ++ g.text ++ w) g' c' fuel := by
  have hMark : Cursor.atDocumentMark ⟨w ++ rest, index, line, column⟩ = false :=
    atDocumentMark_of_column hColumn
  obtain ⟨c, w, rfl⟩ := List.exists_cons_of_ne_nil hWord.ne_nil
  obtain ⟨d, rest, rfl⟩ := List.exists_cons_of_ne_nil hRest
  have hLooks : Cursor.looksAt ⟨c :: w ++ d :: rest, index, line, column⟩ '#' = false := by
    simpa [Cursor.looksAt] using hHash
  have hHere : endsToken (some d) = true := hEnds
  rw [scanPlain, hMark, hLooks, plainWord_of_word hWord hEnds]
  simp only [Bool.or_self, Bool.false_eq_true, if_false, Cursor.skip_mk, List.drop_left,
    Cursor.atEnd, Cursor.endsAt, List.isEmpty_cons, List.getElem?_cons_zero, hHere, Bool.not_true,
    hGap, Bool.not_false, Bool.true_and, decide_eq_true_eq]

theorem scanPlain_words (h : Words cs) (hHash : cs.head? ≠ some '#') (hColumn : column ≠ 0)
    (hLeftmost : leftmost ≤ column) (hM : m < leftmost) (hRest : StartsSolid rest)
    (text : List Char) (g : Gap) {fuel : Nat} (hFuel : cs.length ≤ fuel) :
    scanPlain false leftmost text g
        ⟨cs ++ '\n' :: (List.replicate m ' ' ++ rest), index, line, column⟩ fuel =
      some (text ++ g.text ++ cs, true, ⟨rest, index + cs.length + 1 + m, line + 1, m⟩) := by
  induction h generalizing text g index column fuel with
  | @word w hWord =>
    have hLength := List.length_pos_iff.mpr hWord.ne_nil
    obtain ⟨fuel, rfl⟩ : ∃ n, fuel = n + 1 := ⟨fuel - 1, by omega⟩
    have hRoom : ('\n' :: (List.replicate m ' ' ++ rest)).length + 1 =
        m + (rest.length + 1) + 1 := by
      simp
      omega
    rw [scanPlain_word hWord hHash (by simp) (by rfl) hColumn
      (by rw [hRoom, takeGap_first _ _ _ _ _ _ _ lineBreak_newline, takeGap_indentation,
        takeGap_of_startsSolid _ _ _ _ hRest]), Nat.zero_add, if_pos hM]
  | @more w later count hWord hCount hLater hWords ih =>
    have hLength := List.length_pos_iff.mpr hWord.ne_nil
    rw [List.length_append, List.length_append] at hFuel
    obtain ⟨fuel, rfl⟩ : ∃ n, fuel = n + 1 := ⟨fuel - 1, by omega⟩
    have hHashHere : w.head? ≠ some '#' := by
      cases w with
      | nil => exact absurd rfl hWord.ne_nil
      | cons c w => exact hHash
    have hEnds (tail : List Char) :
        endsToken (List.replicate count ' ' ++ tail).head? = true := by
      cases count with
      | zero => exact absurd hCount (Nat.lt_irrefl 0)
      | succ count => simp [List.replicate_succ, endsToken, isBlank]
    have hRoom (tail : List Char) : (List.replicate count ' ' ++ tail).length + 1 =
        count + (tail.length + 1) := by
      simp
      omega
    rw [List.append_assoc, List.append_assoc, scanPlain_word hWord hHashHere (by simp) (hEnds _)
      hColumn (by rw [hRoom, takeGap_blanks, takeGap_of_startsSolid _ _ _ _ (hWords.startsSolid _)]),
      if_neg (by simp only; omega), ih hLater (by omega) (by omega) _ _ (by omega)]
    simp [Gap.text, Nat.add_assoc]

/-- A text before a colon is one word. -/
theorem scanPlain_key {w : List Char} (hWord : Word w) (hHash : w.head? ≠ some '#')
    (hRest : endsToken rest.head? = true)
    (hMark : Cursor.atDocumentMark ⟨w ++ ':' :: rest, index, line, column⟩ = false) (fuel : Nat) :
    scanPlain false leftmost [] {} ⟨w ++ ':' :: rest, index, line, column⟩ (fuel + 1) =
      some (w, false, ⟨':' :: rest, index + w.length, line, column + w.length⟩) := by
  have hRead : plainWord false [] (w ++ ':' :: rest) = some w := by
    rw [plainWord_append hWord.solid hWord.last, plainWord_colon hRest]
    simp
  obtain ⟨c, w, rfl⟩ := List.exists_cons_of_ne_nil hWord.ne_nil
  have hLooks : Cursor.looksAt ⟨c :: w ++ ':' :: rest, index, line, column⟩ '#' = false := by
    simpa [Cursor.looksAt] using hHash
  have hColon : endsToken (some ':') = false := by decide
  rw [scanPlain, hMark, hLooks, hRead]
  simp [Cursor.skip_mk, Cursor.endsAt, hColon, Gap.text]

end ScanPlain

/-! ## Texts that may be plain -/

theorem isPrintable_of_isSpecial {cs : List Char} (h : isSpecial cs = false) {c : Char}
    (hc : c ∈ cs) : isPrintable c = true := by
  rw [isSpecial, Bool.or_eq_false_iff, List.any_eq_false] at h
  simpa using h.1 c hc

theorem isBlank_of_isPrintable {c : Char} (h : isPrintable c = true) (hSpace : c ≠ ' ') :
    isBlank c = false := by
  have hTab : c ≠ '\t' := by
    rintro rfl
    exact absurd h (by decide)
  simp [isBlank, hSpace, hTab]

theorem words_of_allowsPlain {cs : List Char} (h : allowsPlain cs = true) : Words cs := by
  simp only [allowsPlain, Bool.and_eq_true, Bool.not_eq_true', atEnds, Bool.or_eq_false_iff,
    decide_eq_true_eq, List.any_eq_false] at h
  obtain ⟨⟨⟨⟨⟨hNonempty, hFirst, hLast⟩, hSpecial⟩, hBreaks⟩, -⟩, hIndicator⟩ := h
  apply words_of_hasIndicator cs ?_ hNonempty ?_ ?_ hIndicator
  · intro c hc hSpace
    exact ⟨isBlank_of_isPrintable (isPrintable_of_isSpecial hSpecial hc) hSpace,
      Bool.eq_false_iff.mpr (hBreaks c hc)⟩
  · intro hSpace
    simp [hSpace] at hFirst
  · intro hSpace
    simp [hSpace] at hLast

end ClusterInventory.Yaml
