import ClusterInventory.Proofs.Yaml.Plain

/-! # Quoted texts

Between quotes a text is written word by word. Between the words stand blanks, or, in single quotes,
breaks and the indentation of the next line.
-/

namespace ClusterInventory.Yaml

structure Encodes (quote : Char) (encode : Char → List Char) (inWord : Char → Prop) : Prop where
  solid : Solid quote
  starts : ∀ c, inWord c → ∃ d code, encode c = d :: code ∧ Solid d
  read : ∀ c, inWord c → ∀ acc taken rest fuel,
    quotedWord quote acc taken (encode c ++ rest) (fuel + 1) =
      quotedWord quote (c :: acc) (taken + (encode c).length) rest fuel

inductive Quoted (encode : Char → List Char) (inWord : Char → Prop) (indent : Nat) :
    List Char → List Char → Prop where
  | word {w : List Char} : (∀ c ∈ w, inWord c) → Quoted encode inWord indent w (w.flatMap encode)
  | blanks {w later printed : List Char} {count : Nat} : (∀ c ∈ w, inWord c) → 0 < count →
      StartsSolid printed → Quoted encode inWord indent later printed →
      Quoted encode inWord indent (w ++ (List.replicate count ' ' ++ later))
        (w.flatMap encode ++ (List.replicate count ' ' ++ printed))
  | breaks {w bs later printed : List Char} {b : Char} : (∀ c ∈ w, inWord c) → b ≠ '\n' →
      (∀ d ∈ b :: bs, LineBreak d) → StartsSolid printed →
      Quoted encode inWord indent later printed →
      Quoted encode inWord indent (w ++ (b :: bs ++ later))
        (w.flatMap encode ++ (b :: bs ++ (List.replicate indent ' ' ++ printed)))

/-! ## Reading -/

section Reading

variable {quote : Char} {encode : Char → List Char} {inWord : Char → Prop} {w : List Char}

theorem quotedWord_append (h : Encodes quote encode inWord) (hWord : ∀ c ∈ w, inWord c)
    (acc rest : List Char) (taken fuel : Nat) :
    quotedWord quote acc taken (w.flatMap encode ++ rest) (w.length + fuel) =
      quotedWord quote (w.reverse ++ acc) (taken + (w.flatMap encode).length) rest fuel := by
  induction w generalizing acc taken with
  | nil => simp
  | cons c w ih =>
    have hRoom : (c :: w).length + fuel = w.length + fuel + 1 := by
      simp
      omega
    rw [hRoom, List.flatMap_cons, List.append_assoc, h.read c (hWord c List.mem_cons_self),
      ih fun d hd => hWord d (List.mem_cons_of_mem c hd)]
    simp [Nat.add_assoc]

theorem quotedWord_gap (acc : List Char) (taken : Nat) {rest : List Char} {d : Char}
    (hGap : endsToken (some d) = true) (fuel : Nat) :
    quotedWord quote acc taken (d :: rest) (fuel + 1) = some (acc.reverse, taken, .gap) := by
  have hEnds : (isBlank d || isBreak d) = true := hGap
  rw [quotedWord, if_pos hEnds]

theorem quotedWord_quote (hSolid : Solid quote) (acc : List Char) (taken : Nat) {rest : List Char}
    (hRest : rest.head? ≠ some '\'') (fuel : Nat) :
    quotedWord quote acc taken (quote :: rest) (fuel + 1) = some (acc.reverse, taken, .quote) := by
  simp [quotedWord, hSolid.1, hSolid.2, hRest]

theorem flatMap_spaces (h : encode ' ' = [' ']) (count : Nat) :
    (List.replicate count ' ').flatMap encode = List.replicate count ' ' := by
  induction count with
  | zero => rfl
  | succ count ih => rw [List.replicate_succ, List.flatMap_cons, ih, h, List.singleton_append]

theorem length_le_flatMap (h : Encodes quote encode inWord) (hWord : ∀ c ∈ w, inWord c) :
    w.length ≤ (w.flatMap encode).length := by
  induction w with
  | nil => simp
  | cons c w ih =>
    obtain ⟨d, code, hCode, -⟩ := h.starts c (hWord c List.mem_cons_self)
    have hLater := ih fun d hd => hWord d (List.mem_cons_of_mem c hd)
    rw [List.flatMap_cons, List.length_append, List.length_cons, hCode, List.length_cons]
    omega

variable {indent index line column : Nat} {text printed tail : List Char}

theorem scanQuoted_end (h : Encodes quote encode inWord) (hWord : ∀ c ∈ w, inWord c)
    (hTail : tail.head? ≠ some '\'') (hColumn : column ≠ 0) (acc : List Char) (fuel : Nat) :
    scanQuoted quote acc ⟨w.flatMap encode ++ quote :: tail, index, line, column⟩ (fuel + 1) =
      some (acc ++ w, ⟨tail, index + (w.flatMap encode).length + 1, line,
        column + (w.flatMap encode).length + 1⟩) := by
  have hMark : Cursor.atDocumentMark ⟨w.flatMap encode ++ quote :: tail, index, line, column⟩ =
      false := atDocumentMark_of_column hColumn
  obtain ⟨room, hRoom⟩ : ∃ room, (w.flatMap encode ++ quote :: tail).length + 1 =
      w.length + (room + 1) := by
    have := length_le_flatMap h hWord
    exact ⟨(w.flatMap encode ++ quote :: tail).length - w.length, by simp at *; omega⟩
  rw [scanQuoted, hMark]
  simp only [hRoom, quotedWord_append h hWord, quotedWord_quote h.solid _ _ hTail,
    Bool.false_eq_true, if_false]
  simp [Cursor.skip_mk]

theorem scanQuoted_gap (h : Encodes quote encode inWord) (hWord : ∀ c ∈ w, inWord c) {d : Char}
    (hGap : endsToken (some d) = true) (hColumn : column ≠ 0) (acc : List Char) {g : Gap}
    {c : Cursor} (hTake : takeGap 0 {} ⟨d :: tail, index + (w.flatMap encode).length, line,
      column + (w.flatMap encode).length⟩ (tail.length + 2) = some (g, c)) (fuel : Nat) :
    scanQuoted quote acc ⟨w.flatMap encode ++ d :: tail, index, line, column⟩ (fuel + 1) =
      scanQuoted quote (acc ++ w ++ g.text) c fuel := by
  have hMark : Cursor.atDocumentMark ⟨w.flatMap encode ++ d :: tail, index, line, column⟩ =
      false := atDocumentMark_of_column hColumn
  obtain ⟨room, hRoom⟩ : ∃ room, (w.flatMap encode ++ d :: tail).length + 1 =
      w.length + (room + 1) := by
    have := length_le_flatMap h hWord
    exact ⟨(w.flatMap encode ++ d :: tail).length - w.length, by simp at *; omega⟩
  rw [scanQuoted, hMark]
  simp only [hRoom, quotedWord_append h hWord, quotedWord_gap _ _ hGap,
    Bool.false_eq_true, if_false]
  simp only [Nat.zero_add, Cursor.skip_mk, List.drop_left, List.append_nil, List.reverse_reverse,
    List.length_cons, hTake, Option.bind_some]

theorem scanQuoted_blanks (h : Encodes quote encode inWord) (hWord : ∀ c ∈ w, inWord c)
    {count : Nat} (hCount : 0 < count) (hTail : StartsSolid tail) (hColumn : column ≠ 0)
    (acc : List Char) (fuel : Nat) :
    scanQuoted quote acc ⟨w.flatMap encode ++ (List.replicate count ' ' ++ tail), index, line,
        column⟩ (fuel + 1) =
      scanQuoted quote (acc ++ w ++ List.replicate count ' ')
        ⟨tail, index + (w.flatMap encode).length + count, line,
          column + (w.flatMap encode).length + count⟩ fuel := by
  obtain ⟨count, rfl⟩ : ∃ n, count = n + 1 := ⟨count - 1, by omega⟩
  have hTake := takeGap_blanks 0 [] [] [] (index + (w.flatMap encode).length) line
    (column + (w.flatMap encode).length) (count + 1) tail (tail.length + 1)
  rw [takeGap_of_startsSolid _ _ _ _ hTail, List.replicate_succ, List.cons_append] at hTake
  have hRoom : count + 1 + (tail.length + 1) = (List.replicate count ' ' ++ tail).length + 2 := by
    simp
    omega
  rw [List.replicate_succ, List.cons_append,
    scanQuoted_gap h hWord (by decide) hColumn acc (hRoom ▸ hTake)]
  simp [Gap.text]

theorem scanQuoted_breaks (h : Encodes quote encode inWord) (hWord : ∀ c ∈ w, inWord c) {b : Char}
    {bs : List Char} (hFeed : b ≠ '\n') (hBreaks : ∀ d ∈ b :: bs, LineBreak d)
    (hTail : StartsSolid tail) (hColumn : column ≠ 0) (acc : List Char) (fuel : Nat) :
    scanQuoted quote acc ⟨w.flatMap encode ++ (b :: bs ++ (List.replicate indent ' ' ++ tail)),
        index, line, column⟩ (fuel + 1) =
      scanQuoted quote (acc ++ w ++ b :: bs)
        ⟨tail, index + (w.flatMap encode).length + 1 + bs.length + indent, line + 1 + bs.length,
          indent⟩ fuel := by
  have hFirst := hBreaks b List.mem_cons_self
  have hMore := fun d hd => hBreaks d (List.mem_cons_of_mem b hd)
  have hTake : takeGap 0 {} ⟨b :: (bs ++ (List.replicate indent ' ' ++ tail)),
      index + (w.flatMap encode).length, line, column + (w.flatMap encode).length⟩
      (bs.length + (indent + (tail.length + 1)) + 1) =
      some (⟨[], true, [b], bs⟩, ⟨tail,
        index + (w.flatMap encode).length + 1 + bs.length + indent, line + 1 + bs.length,
        indent⟩) := by
    rw [takeGap_first _ _ _ _ _ _ _ hFirst, takeGap_more _ _ _ _ _ _ hMore, takeGap_indentation,
      takeGap_of_startsSolid _ _ _ _ hTail]
    simp
  have hRoom : bs.length + (indent + (tail.length + 1)) + 1 =
      (bs ++ (List.replicate indent ' ' ++ tail)).length + 2 := by
    simp
    omega
  rw [List.cons_append,
    scanQuoted_gap h hWord (by simp [endsToken, hFirst.1]) hColumn acc (hRoom ▸ hTake)]
  simp [Gap.text, hFeed]

theorem scanQuoted_of_quoted (h : Encodes quote encode inWord)
    (hQuoted : Quoted encode inWord indent text printed) (hTail : tail.head? ≠ some '\'')
    (hIndent : 0 < indent) (index line column : Nat) (hColumn : column ≠ 0) (acc : List Char)
    (fuel : Nat) (hFuel : printed.length < fuel) :
    ∃ index' line' column', line ≤ line' ∧
      scanQuoted quote acc ⟨printed ++ quote :: tail, index, line, column⟩ fuel =
        some (acc ++ text, ⟨tail, index', line', column'⟩) := by
  have hSolid {printed : List Char} (hStart : StartsSolid printed) :
      StartsSolid (printed ++ quote :: tail) :=
    hStart.append (startsSolid_cons.mpr h.solid)
  induction hQuoted generalizing index line column acc fuel with
  | word hWord =>
    obtain ⟨fuel, rfl⟩ : ∃ n, fuel = n + 1 := ⟨fuel - 1, by omega⟩
    exact ⟨_, _, _, Nat.le_refl line, scanQuoted_end h hWord hTail hColumn acc fuel⟩
  | @blanks w later printed count hWord hCount hStart hLater ih =>
    rw [List.length_append, List.length_append, List.length_replicate] at hFuel
    obtain ⟨fuel, rfl⟩ : ∃ n, fuel = n + 1 := ⟨fuel - 1, by omega⟩
    obtain ⟨index', line', column', hLine, hScan⟩ := ih
      (index + (w.flatMap encode).length + count) line
      (column + (w.flatMap encode).length + count) (by omega)
      (acc ++ w ++ List.replicate count ' ') fuel (by omega)
    refine ⟨index', line', column', hLine, ?_⟩
    rw [List.append_assoc, List.append_assoc,
      scanQuoted_blanks h hWord hCount (hSolid hStart) hColumn, hScan]
    simp only [List.append_assoc]
  | @breaks w bs later printed b hWord hFeed hBreaks hStart hLater ih =>
    rw [List.length_append, List.length_append, List.length_append, List.length_cons,
      List.length_replicate] at hFuel
    obtain ⟨fuel, rfl⟩ : ∃ n, fuel = n + 1 := ⟨fuel - 1, by omega⟩
    obtain ⟨index', line', column', hLine, hScan⟩ := ih
      (index + (w.flatMap encode).length + 1 + bs.length + indent) (line + 1 + bs.length) indent
      (by omega) (acc ++ w ++ b :: bs) fuel (by omega)
    refine ⟨index', line', column', by omega, ?_⟩
    rw [List.append_assoc, List.append_assoc, List.append_assoc,
      scanQuoted_breaks h hWord hFeed hBreaks (hSolid hStart) hColumn, hScan]
    simp only [List.append_assoc]

end Reading

/-! ## Escapes -/

def Unescapes (c : Char) : Prop :=
  ∃ e code, escapeChar c = '\\' :: e :: code ∧ isBreak e = false ∧
    ∀ rest, unescape? (e :: (code ++ rest)) = some (c, code.length + 1)

def isShort (c : Char) : Bool :=
  match escapeChar c with
  | ['\\', e] => escapes.lookup e == some c.toNat && !isBreak e
  | _ => false

def isNumbered (c : Char) : Bool :=
  match escapeChar c with
  | '\\' :: e :: digits =>
      escapes.lookup e == none && !isBreak e && escapeWidth e == digits.length && digits != [] &&
        hexNumber? digits == some c.toNat
  | _ => false

theorem unescapes_of_isShort {c : Char} (h : isShort c = true) : Unescapes c := by
  unfold isShort at h
  split at h
  · rename_i e hEscape
    simp only [Bool.and_eq_true, Bool.not_eq_true', beq_iff_eq] at h
    exact ⟨e, [], hEscape, h.2, fun rest => by simp [unescape?, h.1]⟩
  · cases h

theorem unescapes_of_isNumbered {c : Char} (h : isNumbered c = true) : Unescapes c := by
  unfold isNumbered at h
  split at h
  · rename_i e digits hEscape
    simp only [Bool.and_eq_true, Bool.not_eq_true', beq_iff_eq, bne_iff_ne] at h
    obtain ⟨⟨⟨⟨hLookup, hBreak⟩, hWidth⟩, hDigits⟩, hNumber⟩ := h
    refine ⟨e, digits, hEscape, hBreak, fun rest => ?_⟩
    have hRoom : ¬(digits.length = 0 ∨ (digits ++ rest).length < digits.length) := by
      have := List.length_pos_iff.mpr hDigits
      rw [List.length_append]
      omega
    have hScalar : ¬((0xD800 ≤ c.toNat ∧ c.toNat ≤ 0xDFFF) ∨ 0x10FFFF < c.toNat) := by
      have hValid : c.toNat.isValidChar := c.valid
      unfold Nat.isValidChar at hValid
      omega
    simp only [unescape?, hLookup, hWidth, hRoom, if_false, List.take_left, hNumber, hScalar,
      Char.ofNat_toNat]
  · cases h

/-- All characters that are not written as they are, but the quote and the mark itself. -/
theorem isShort_or_isNumbered_low : ∀ n < 0xA0,
    isPrintable (Char.ofNat n) = false ∨ isBreak (Char.ofNat n) = true →
      isShort (Char.ofNat n) = true ∨ isNumbered (Char.ofNat n) = true := by
  decide +kernel

theorem isShort_or_isNumbered_high : ∀ n ∈ [0x2028, 0x2029, 0xFEFF, 0xFFFE, 0xFFFF],
    isShort (Char.ofNat n) = true ∨ isNumbered (Char.ofNat n) = true := by
  decide +kernel

/-- The codes of the characters that are not written as they are. -/
theorem toNat_of_not_shown {c : Char} (h : isPrintable c = false ∨ isBreak c = true) :
    c.toNat < 0xA0 ∨ c.toNat ∈ [0x2028, 0x2029, 0xFEFF, 0xFFFE, 0xFFFF] := by
  have hFeed : c = '\n' ↔ c.toNat = 0x0A := (@Char.toNat_inj c '\n').symm
  have hReturn : c = '\r' ↔ c.toNat = 0x0D := (@Char.toNat_inj c '\r').symm
  simp only [isPrintable, isBreak, hFeed, hReturn, Bool.or_eq_false_iff, Bool.and_eq_false_iff,
    Bool.or_eq_true, decide_eq_false_iff_not, decide_eq_true_eq, bne_eq_false_iff_eq] at h
  simp only [List.mem_cons, List.not_mem_nil, or_false]
  omega

theorem unescapes_of_not_shown {c : Char} (h : isPrintable c = false ∨ isBreak c = true) :
    Unescapes c := by
  have hCode := toNat_of_not_shown h
  have hCheck : isShort c = true ∨ isNumbered c = true := by
    rw [← Char.ofNat_toNat c] at h ⊢
    rcases hCode with hLow | hHigh
    · exact isShort_or_isNumbered_low c.toNat hLow h
    · exact isShort_or_isNumbered_high c.toNat hHigh
  exact hCheck.elim unescapes_of_isShort unescapes_of_isNumbered

structure Shown (c : Char) : Prop where
  escape : escapeChar c = [c]
  isPrintable : isPrintable c = true
  isBreak : isBreak c = false
  ne_quote : c ≠ '"'
  ne_mark : c ≠ '\\'

theorem unescapes_or_shown (c : Char) : Unescapes c ∨ Shown c := by
  by_cases hQuote : c = '"'
  · exact .inl (unescapes_of_isShort (by rw [hQuote]; decide))
  · by_cases hMark : c = '\\'
    · exact .inl (unescapes_of_isShort (by rw [hMark]; decide))
    · cases hPrintable : isPrintable c with
      | false => exact .inl (unescapes_of_not_shown (.inl hPrintable))
      | true =>
        cases hBreak : isBreak c with
        | true => exact .inl (unescapes_of_not_shown (.inr hBreak))
        | false =>
          exact .inr ⟨by simp [escapeChar, hQuote, hMark, hPrintable, hBreak], hPrintable, hBreak,
            hQuote, hMark⟩

theorem escapeChar_all_low : ∀ n < 0xA0,
    (escapeChar (Char.ofNat n)).all fun d => isPrintable d && !isBreak d := by
  decide +kernel

theorem escapeChar_all_high : ∀ n ∈ [0x2028, 0x2029, 0xFEFF, 0xFFFE, 0xFFFF],
    (escapeChar (Char.ofNat n)).all fun d => isPrintable d && !isBreak d := by
  decide +kernel

theorem isPrintable_isBreak_of_mem_escapeChar {c d : Char} (h : d ∈ escapeChar c) :
    isPrintable d = true ∧ isBreak d = false := by
  have hAll : (escapeChar c).all fun d => isPrintable d && !isBreak d := by
    by_cases hShown : isPrintable c = false ∨ isBreak c = true
    · rw [← Char.ofNat_toNat c]
      rcases toNat_of_not_shown hShown with hLow | hHigh
      · exact escapeChar_all_low c.toNat hLow
      · exact escapeChar_all_high c.toNat hHigh
    · simp only [not_or, Bool.not_eq_false, Bool.not_eq_true] at hShown
      by_cases hQuote : c = '"'
      · rw [hQuote]
        decide
      · by_cases hMark : c = '\\'
        · rw [hMark]
          decide
        · simp [escapeChar, hQuote, hMark, hShown]
  simpa using List.all_eq_true.mp hAll d h

theorem isPrintable_isBreak_of_mem_doubleQuoted {c : Char} {s : String}
    (h : c ∈ (doubleQuoted s).toList) : isPrintable c = true ∧ isBreak c = false := by
  simp only [doubleQuoted, String.toList_ofList, List.mem_cons, List.cons_append, List.mem_append,
    List.not_mem_nil, or_false] at h
  rcases h with rfl | hBody | rfl
  · decide
  · obtain ⟨d, -, hEscape⟩ := List.mem_flatMap.mp hBody
    exact isPrintable_isBreak_of_mem_escapeChar hEscape
  · decide

theorem encodes_escapeChar : Encodes '"' escapeChar (· ≠ ' ') where
  solid := ⟨by decide, by decide⟩
  starts c hSpace := by
    rcases unescapes_or_shown c with ⟨e, code, hEscape, -⟩ | hShown
    · exact ⟨'\\', e :: code, hEscape, by decide, by decide⟩
    · exact ⟨c, [], hShown.escape, isBlank_of_isPrintable hShown.isPrintable hSpace, hShown.isBreak⟩
  read c hSpace acc taken rest fuel := by
    rcases unescapes_or_shown c with ⟨e, code, hEscape, hBreak, hUnescape⟩ | hShown
    · have hMark : (isBlank '\\' || isBreak '\\') = false := by decide
      have hOther : ('\\' : Char) ≠ '"' ∧ ('"' : Char) ≠ '\'' := by decide
      rw [hEscape, List.cons_append, List.cons_append, quotedWord]
      simp only [hMark, hOther.1, hOther.2, decide_false, decide_true, Bool.false_and,
        Bool.and_self, Bool.false_eq_true, if_false, if_true, List.head?_cons, Option.any_some,
        hBreak, hUnescape, List.drop_succ_cons, List.drop_left, List.length_cons]
      congr 1
      omega
    · have hBlank := isBlank_of_isPrintable hShown.isPrintable hSpace
      rw [hShown.escape, List.singleton_append, quotedWord]
      simp [hBlank, hShown.isBreak, hShown.ne_quote, hShown.ne_mark]

/-- In double quotes every text can be written. -/
theorem quoted_flatMap_escapeChar (indent : Nat) (cs : List Char) :
    Quoted escapeChar (· ≠ ' ') indent cs (cs.flatMap escapeChar) := by
  rcases exists_word cs with hWord | ⟨w, count, rest, rfl, hWord, hRest⟩
  · exact .word hWord
  · have hStart : StartsSolid (rest.flatMap escapeChar) := by
      cases rest with
      | nil => exact startsSolid_nil
      | cons c rest =>
        obtain ⟨d, code, hCode, hSolid⟩ :=
          encodes_escapeChar.starts c fun hSpace => hRest (congrArg some hSpace)
        simpa [hCode] using startsSolid_cons.mpr hSolid
    rw [List.flatMap_append, List.flatMap_append, flatMap_spaces (by decide)]
    exact .blanks hWord (Nat.succ_pos count) hStart (quoted_flatMap_escapeChar indent rest)
termination_by cs.length
decreasing_by
  subst_vars
  simp
  omega

/-! ## Single quotes -/

def doubled (c : Char) : List Char := if c = '\'' then [c, c] else [c]

theorem encodes_doubled : Encodes '\'' doubled Solid where
  solid := ⟨by decide, by decide⟩
  starts c hSolid := by
    unfold doubled
    split
    · exact ⟨c, [c], rfl, hSolid⟩
    · exact ⟨c, [], rfl, hSolid⟩
  read c hSolid acc taken rest fuel := by
    unfold doubled
    split
    · subst c
      simp [quotedWord, hSolid.1, hSolid.2]
    · rename_i hQuote
      simp [quotedWord, hSolid.1, hSolid.2, hQuote]

section Pairs

variable {first second : Char → Bool}

theorem hasPair_cons (c : Char) (rest : List Char) : hasPair first second (c :: rest) =
    (first c && rest.head?.any second || hasPair first second rest) := by
  cases rest with
  | nil => simp [hasPair]
  | cons d rest => simp [hasPair]

theorem hasPair_of_append {front rest : List Char}
    (h : hasPair first second (front ++ rest) = false) : hasPair first second rest = false := by
  induction front with
  | nil => exact h
  | cons c front ih =>
    rw [List.cons_append, hasPair_cons, Bool.or_eq_false_iff] at h
    exact ih h.2

/-- What follows characters of the first kind is not of the second. -/
theorem not_second_of_hasPair {front rest : List Char}
    (h : hasPair first second (front ++ rest) = false) (hNil : front ≠ [])
    (hFirst : ∀ c ∈ front, first c = true) : ∀ d ∈ rest.head?, second d = false := by
  induction front with
  | nil => exact absurd rfl hNil
  | cons c front ih =>
    rw [List.cons_append, hasPair_cons, Bool.or_eq_false_iff] at h
    cases front with
    | cons e front => exact ih h.2 (by simp) fun d hd => hFirst d (List.mem_cons_of_mem c hd)
    | nil =>
      intro d hd
      have hHere := h.1
      rw [List.nil_append, Option.mem_def.mp hd] at hHere
      simpa [hFirst c List.mem_cons_self] using hHere

end Pairs

section SingleQuoted

variable {indent : Nat} {w bs : List Char}

theorem singleQuotedBody_append (hWord : ∀ c ∈ w, isBreak c = false) (rest : List Char) :
    singleQuotedBody indent false (w ++ rest) =
      w.flatMap doubled ++ singleQuotedBody indent false rest := by
  induction w with
  | nil => rfl
  | cons c w ih =>
    have hHere := hWord c List.mem_cons_self
    rw [List.cons_append, singleQuotedBody, ih fun d hd => hWord d (List.mem_cons_of_mem c hd)]
    simp [hHere, doubled]

theorem singleQuotedBody_breaks (hBreaks : ∀ b ∈ bs, isBreak b = true) (rest : List Char) :
    singleQuotedBody indent true (bs ++ rest) = bs ++ singleQuotedBody indent true rest := by
  induction bs with
  | nil => rfl
  | cons b bs ih =>
    rw [List.cons_append, singleQuotedBody, if_pos (hBreaks b List.mem_cons_self),
      ih fun d hd => hBreaks d (List.mem_cons_of_mem b hd)]
    rfl

theorem singleQuotedBody_indented {rest : List Char} (h : ∀ c ∈ rest.head?, isBreak c = false) :
    singleQuotedBody indent true rest =
      List.replicate indent ' ' ++ singleQuotedBody indent false rest := by
  cases rest with
  | nil => simp [singleQuotedBody]
  | cons c rest =>
    have hHere := h c rfl
    simp [singleQuotedBody, hHere]

theorem startsSolid_singleQuotedBody {cs : List Char} (h : StartsSolid cs) :
    StartsSolid (singleQuotedBody indent false cs) := by
  cases cs with
  | nil => exact startsSolid_nil
  | cons c cs =>
    have hSolid := startsSolid_cons.mp h
    obtain ⟨d, code, hCode, hHead⟩ := encodes_doubled.starts c hSolid
    have hWord : ∀ d ∈ [c], isBreak d = false := by simpa using hSolid.2
    rw [← List.singleton_append, singleQuotedBody_append hWord, List.flatMap_singleton, hCode]
    exact startsSolid_cons.mpr hHead

theorem mem_singleQuotedBody {c : Char} {afterBreak : Bool} {cs : List Char}
    (h : c ∈ singleQuotedBody indent afterBreak cs) : c = ' ' ∨ c = '\'' ∨ c ∈ cs := by
  induction cs generalizing afterBreak with
  | nil =>
    cases afterBreak with
    | false => cases h
    | true => exact .inl (List.eq_of_mem_replicate h)
  | cons d cs ih =>
    rw [singleQuotedBody] at h
    grind

theorem mem_singleQuoted {c : Char} {s : String} (h : c ∈ (singleQuoted indent s).toList) :
    c = ' ' ∨ c = '\'' ∨ c ∈ s.toList := by
  simp only [singleQuoted, String.toList_ofList, List.mem_cons, List.cons_append, List.mem_append,
    List.not_mem_nil, or_false] at h
  rcases h with hQuote | hBody | hQuote
  · exact .inr (.inl hQuote)
  · exact mem_singleQuotedBody hBody
  · exact .inr (.inl hQuote)

structure Single (cs : List Char) : Prop where
  isPrintable : ∀ c ∈ cs, isPrintable c = true
  noFeed : '\n' ∉ cs
  noBreakAfterBlank : hasPair (· == ' ') isBreak cs = false
  noBlankAfterBreak : hasPair isBreak (· == ' ') cs = false

theorem Single.of_append {front rest : List Char} (h : Single (front ++ rest)) : Single rest where
  isPrintable c hc := h.isPrintable c (List.mem_append_right front hc)
  noFeed hFeed := h.noFeed (List.mem_append_right front hFeed)
  noBreakAfterBlank := hasPair_of_append h.noBreakAfterBlank
  noBlankAfterBreak := hasPair_of_append h.noBlankAfterBreak

theorem Single.startsSolid {cs : List Char} (h : Single cs)
    (hBlank : ∀ c ∈ cs.head?, (c == ' ') = false) (hBreak : ∀ c ∈ cs.head?, isBreak c = false) :
    StartsSolid cs := by
  intro c hc
  have hSpace : c ≠ ' ' := by simpa using hBlank c hc
  exact ⟨isBlank_of_isPrintable (h.isPrintable c (List.mem_of_mem_head? hc)) hSpace, hBreak c hc⟩

theorem Single.quoted (indent : Nat) (cs : List Char) (h : Single cs) :
    Quoted doubled Solid indent cs (singleQuotedBody indent false cs) := by
  obtain ⟨w, rest, rfl, hWord, hRest⟩ := exists_span (fun c => !isBlank c && !isBreak c) cs
  have hInWord : ∀ c ∈ w, Solid c := fun c hc => by simpa [Solid] using hWord c hc
  rw [singleQuotedBody_append fun c hc => (hInWord c hc).2]
  replace h := h.of_append
  cases rest with
  | nil => simpa [singleQuotedBody] using Quoted.word hInWord
  | cons c rest =>
    cases hBreak : isBreak c with
    | true =>
      -- A run of breaks, and after it neither a break nor a blank.
      obtain ⟨bs, later, rfl, hBreaks, hLater⟩ := exists_span isBreak rest
      have hRun : ∀ b ∈ c :: bs, isBreak b = true := by simpa [hBreak] using hBreaks
      rw [← List.cons_append] at h
      have hBlank := not_second_of_hasPair h.noBlankAfterBreak (List.cons_ne_nil c bs) hRun
      have hBody := Quoted.breaks hInWord (fun hFeed => h.noFeed (by simp [hFeed]))
        (fun b hb => ⟨hRun b hb, h.isPrintable b (List.mem_append_left later hb)⟩)
        (startsSolid_singleQuotedBody (h.of_append.startsSolid hBlank hLater))
        (h.of_append.quoted indent later)
      rwa [singleQuotedBody, if_pos hBreak, singleQuotedBody_breaks hBreaks,
        singleQuotedBody_indented hLater]
    | false =>
      -- A run of blanks, and after it neither a blank nor a break.
      have hPrintable := h.isPrintable c List.mem_cons_self
      have hSpace : c = ' ' := by
        apply Classical.byContradiction
        intro hOther
        simpa [hBreak, isBlank_of_isPrintable hPrintable hOther] using hRest c rfl
      obtain ⟨blanks, later, rfl, hBlanks, hLater⟩ := exists_span (· == ' ') rest
      have hRun : c :: blanks = List.replicate (blanks.length + 1) ' ' := by
        apply List.eq_replicate_of_mem
        simpa [hSpace] using hBlanks
      rw [← List.cons_append, hRun] at h ⊢
      have hAfter := not_second_of_hasPair h.noBreakAfterBlank (by simp) (by simp)
      have hNoBreak : ∀ c ∈ List.replicate (blanks.length + 1) ' ', isBreak c = false := by
        intro c hc
        rw [List.eq_of_mem_replicate hc]
        decide
      rw [singleQuotedBody_append hNoBreak, flatMap_spaces (by decide)]
      exact .blanks hInWord (Nat.succ_pos _)
        (startsSolid_singleQuotedBody (h.of_append.startsSolid hLater hAfter))
        (h.of_append.quoted indent later)
termination_by cs.length
decreasing_by
  all_goals
    subst_vars
    simp
    omega

end SingleQuoted

end ClusterInventory.Yaml
