import ClusterInventory.Proofs.Yaml.Literal
import ClusterInventory.Proofs.Yaml.Quoted

/-! # Scanning block lists and keys

Before a token stands what separates it from the last one. When that is skipped the scanner is
ready: a key may start, and of the keys that were possible none is left. Every line of a printed
text leads from one place where it is ready to the next.
-/

namespace ClusterInventory.Yaml.Scanner

/-! ## Runs -/

/-- The run from one state goes on as the run from the other, with room for what is left. -/
def Leads (s t : Scanner) : Prop :=
  ∀ fuel, s.cursor.rest.length + 2 ≤ fuel →
    ∃ fuel', t.cursor.rest.length + 2 ≤ fuel' ∧ s.run fuel = t.run fuel'

variable {s t u : Scanner}

theorem Leads.trans (h : s.Leads t) (hNext : t.Leads u) : s.Leads u := by
  intro fuel hFuel
  obtain ⟨fuel', hFuel', hRun⟩ := h fuel hFuel
  obtain ⟨fuel'', hFuel'', hRun'⟩ := hNext fuel' hFuel'
  exact ⟨fuel'', hFuel'', hRun.trans hRun'⟩

theorem leads_of_step (h : s.step = some t) (hEnd : t.tokens.head? ≠ some .streamEnd)
    (hRest : t.cursor.rest.length < s.cursor.rest.length) : s.Leads t := by
  intro fuel hFuel
  obtain ⟨fuel, rfl⟩ : ∃ n, fuel = n + 1 := ⟨fuel - 1, by omega⟩
  refine ⟨fuel, by omega, ?_⟩
  simp [run, h, hEnd]

theorem leads_of_step_eq (h : s.step = t.step) (hStep : t.step = some u)
    (hRest : t.cursor.rest.length ≤ s.cursor.rest.length) : s.Leads t := by
  intro fuel hFuel
  obtain ⟨fuel, rfl⟩ : ∃ n, fuel = n + 1 := ⟨fuel - 1, by omega⟩
  exact ⟨fuel + 1, by omega, by rw [run, run, h, hStep]⟩

theorem step_congr (h : s.settle = t.settle) : s.step = t.step := by
  rw [step, step, h]

theorem leads_of_settle (h : s.settle = t.settle) (hTokens : s.tokens = t.tokens)
    (hRest : t.cursor.rest.length ≤ s.cursor.rest.length) : s.Leads t := by
  intro fuel hFuel
  obtain ⟨fuel, rfl⟩ : ∃ n, fuel = n + 1 := ⟨fuel - 1, by omega⟩
  exact ⟨fuel + 1, by omega, by rw [run, run, step_congr h, hTokens]⟩

/-! ## States -/

/-- Ready for the next token of a block. -/
def ready (c : Cursor) (tokens : List Token) (indent : Int) (indents : List Int) : Scanner :=
  ⟨c, tokens, indent, indents, true, none, []⟩

@[simp]
theorem cursor_ready (c : Cursor) (tokens : List Token) (indent : Int) (indents : List Int) :
    (ready c tokens indent indents).cursor = c :=
  rfl

@[simp]
theorem indent_ready (c : Cursor) (tokens : List Token) (indent : Int) (indents : List Int) :
    (ready c tokens indent indents).indent = indent :=
  rfl

@[simp]
theorem inFlow_ready (c : Cursor) (tokens : List Token) (indent : Int) (indents : List Int) :
    (ready c tokens indent indents).inFlow = false :=
  rfl

structure Fresh (cs : List Char) : Prop where
  starts : StartsSolid cs
  no_comment : cs.head? ≠ some '#'
  no_mark : ∀ c ∈ cs.head?, c.toNat ≠ 0xFEFF

/-- A key that need not be one and that stands before the given line. -/
def Gone (line : Nat) (possible : Option PossibleKey) : Prop :=
  ∀ k ∈ possible, k.required = false ∧ k.line < line

theorem gone_none (line : Nat) : Gone line none := by
  intro k hk
  cases hk

section Settle

variable {rest : List Char} {index line column m : Nat} {tokens : List Token} {indent : Int}
  {indents : List Int} {allowed : Bool} {possible : Option PossibleKey}

theorem fresh_nil : Fresh [] := ⟨nofun, nofun, nofun⟩

theorem takeRun_blanks (h : Fresh rest) (tabs : Bool) (m : Nat) :
    Cursor.takeRun (fun ch => ch = ' ' || (tabs && ch = '\t'))
        ⟨List.replicate m ' ' ++ rest, index, line, column⟩ =
      (List.replicate m ' ', ⟨rest, index + m, line, column + m⟩) := by
  have hRun : (List.replicate m ' ' ++ rest).takeWhile
      (fun ch => (ch = ' ' || (tabs && ch = '\t')) && !isBreak ch) = List.replicate m ' ' := by
    rw [List.takeWhile_append_of_pos]
    · cases rest with
      | nil => simp
      | cons c rest =>
        have hBlank := (startsSolid_cons.mp h.starts).1
        simp only [isBlank, Bool.or_eq_false_iff, decide_eq_false_iff_not] at hBlank
        simp [hBlank]
    · intro c hc
      rw [List.eq_of_mem_replicate hc]
      rfl
  have hDrop : (List.replicate m ' ' ++ rest).drop m = rest := List.drop_left' List.length_replicate
  simp only [Cursor.takeRun, hRun, Cursor.skip_mk, List.length_replicate, hDrop]

theorem skipBlanks_blanks (h : Fresh rest) (outer : List (Option PossibleKey)) (m fuel : Nat) :
    skipBlanks ⟨⟨List.replicate m ' ' ++ rest, index, line, column⟩, tokens, indent, indents,
        allowed, possible, outer⟩ (fuel + 1) =
      ⟨⟨rest, index + m, line, column + m⟩, tokens, indent, indents, allowed, possible, outer⟩ := by
  have hMark : ¬(column = 0 ∧
      (List.replicate m ' ' ++ rest).head?.any (·.toNat = 0xFEFF) = true) := by
    rintro ⟨-, hMark⟩
    cases m with
    | zero =>
      cases rest with
      | nil => cases hMark
      | cons c rest => exact h.no_mark c rfl (by simpa using hMark)
    | succ m => simp [List.replicate_succ] at hMark
  have hComment : Cursor.looksAt ⟨rest, index + m, line, column + m⟩ '#' = false := by
    rw [Cursor.looksAt, beq_eq_false_iff_ne]
    exact h.no_comment
  have hBreak : Cursor.atBreak ⟨rest, index + m, line, column + m⟩ = false := by
    cases rest with
    | nil => rfl
    | cons c rest => exact (startsSolid_cons.mp h.starts).2
  rw [skipBlanks]
  simp only [hMark, if_false, takeRun_blanks h, hComment, hBreak, Bool.false_eq_true]

theorem skipBlanks_newline (h : Fresh rest) (m fuel : Nat) :
    skipBlanks ⟨⟨'\n' :: (List.replicate m ' ' ++ rest), index, line, column⟩, tokens, indent,
        indents, allowed, possible, []⟩ (fuel + 2) =
      ⟨⟨rest, index + 1 + m, line + 1, m⟩, tokens, indent, indents, true, possible, []⟩ := by
  have hMark : ¬(column = 0 ∧ ('\n' :: (List.replicate m ' ' ++ rest)).head?.any
      (·.toNat = 0xFEFF) = true) := by
    simp
  have hRun (tabs : Bool) : Cursor.takeRun (fun ch => ch = ' ' || (tabs && ch = '\t'))
      ⟨'\n' :: (List.replicate m ' ' ++ rest), index, line, column⟩ =
        ([], ⟨'\n' :: (List.replicate m ' ' ++ rest), index, line, column⟩) := by
    simp [Cursor.takeRun, Cursor.skip_mk]
  have hComment : Cursor.looksAt ⟨'\n' :: (List.replicate m ' ' ++ rest), index, line, column⟩ '#' =
      false := rfl
  have hBreak : Cursor.atBreak ⟨'\n' :: (List.replicate m ' ' ++ rest), index, line, column⟩ =
      true := rfl
  rw [skipBlanks]
  simp only [hMark, if_false, hRun, hComment, hBreak, Bool.false_eq_true, if_true,
    Cursor.takeBreak_cons lineBreak_newline, inFlow, List.isEmpty_nil, Bool.not_true,
    Bool.not_false, Bool.or_true, skipBlanks_blanks h, Nat.zero_add]

theorem dropStale_gone {c : Cursor} (h : Gone c.line possible) :
    dropStale ⟨c, tokens, indent, indents, allowed, possible, []⟩ =
      some ⟨c, tokens, indent, indents, allowed, none, []⟩ := by
  cases possible with
  | none => rfl
  | some k =>
    obtain ⟨hRequired, hLine⟩ := h k rfl
    simp [dropStale, hRequired, hLine]

theorem settle_ready (h : Fresh rest) (hGone : Gone line possible) :
    settle ⟨⟨rest, index, line, column⟩, tokens, indent, indents, true, possible, []⟩ =
      some (ready ⟨rest, index, line, column⟩ tokens indent indents) := by
  have hSkip := @skipBlanks_blanks rest index line column tokens indent indents true possible h [] 0
  simp only [List.replicate_zero, List.nil_append, Nat.add_zero] at hSkip
  rw [settle, hSkip, dropStale_gone hGone]
  rfl

theorem settle_blanks (h : Fresh rest) (m : Nat) :
    settle (ready ⟨List.replicate m ' ' ++ rest, index, line, column⟩ tokens indent indents) =
      some (ready ⟨rest, index + m, line, column + m⟩ tokens indent indents) := by
  rw [settle, ready, skipBlanks_blanks h, dropStale_gone (gone_none _)]
  rfl

theorem settle_newline (h : Fresh rest) (hGone : Gone (line + 1) possible) (m : Nat) :
    settle ⟨⟨'\n' :: (List.replicate m ' ' ++ rest), index, line, column⟩, tokens, indent, indents,
        allowed, possible, []⟩ =
      some (ready ⟨rest, index + 1 + m, line + 1, m⟩ tokens indent indents) := by
  rw [settle, List.length_cons, skipBlanks_newline h, dropStale_gone hGone]
  rfl

theorem leads_newline (h : Fresh rest) (hGone : Gone (line + 1) possible) (m : Nat) :
    Leads ⟨⟨'\n' :: (List.replicate m ' ' ++ rest), index, line, column⟩, tokens, indent, indents,
        allowed, possible, []⟩
      (ready ⟨rest, index + 1 + m, line + 1, m⟩ tokens indent indents) := by
  apply leads_of_settle
  · rw [settle_newline h hGone, ready, settle_ready h (gone_none _)]
    rfl
  · rfl
  · simp [ready]
    omega

theorem leads_ready (h : Fresh rest) (hGone : Gone line possible) :
    Leads ⟨⟨rest, index, line, column⟩, tokens, indent, indents, true, possible, []⟩
      (ready ⟨rest, index, line, column⟩ tokens indent indents) := by
  apply leads_of_settle
  · rw [settle_ready h hGone, ready, settle_ready h (gone_none _)]
    rfl
  · rfl
  · exact Nat.le_refl _

theorem leads_blanks (h : Fresh rest) (m : Nat) :
    Leads (ready ⟨List.replicate m ' ' ++ rest, index, line, column⟩ tokens indent indents)
      (ready ⟨rest, index + m, line, column + m⟩ tokens indent indents) := by
  apply leads_of_settle
  · rw [settle_blanks h, ready, settle_ready h (gone_none _)]
    rfl
  · rfl
  · simp [ready]

end Settle

/-! ## Indentation -/

theorem dedentTo_of_le {column : Int} (h : s.indent ≤ column) : s.dedentTo column = s := by
  have hNot : ¬column < s.indent := by omega
  unfold dedentTo
  split
  · rfl
  · cases hIndents : s.indents with
    | nil =>
      rw [dedentTo.go, ← hIndents]
    | cons i r =>
      rw [dedentTo.go, if_neg hNot, ← hIndents]

theorem indentTo_of_le {column : Nat} (h : (column : Int) ≤ s.indent) (number : Nat) (t : Token) :
    s.indentTo column number t = s := by
  simp [indentTo, h]

theorem indentTo_of_lt {column : Nat} (hFlow : s.inFlow = false) (h : s.indent < column)
    (number : Nat) (t : Token) : s.indentTo column number t =
      { s.insert number t with indents := s.indent :: s.indents, indent := column } := by
  have hNot : ¬(column : Int) ≤ s.indent := by omega
  simp only [indentTo, hFlow, hNot, decide_false, Bool.or_self, Bool.false_eq_true, if_false]

theorem dedentTo_ready {c : Cursor} {tokens : List Token} {indent next : Int} {indents : List Int}
    {column : Int} (h : column < indent) (hNext : next ≤ column) :
    (ready c tokens indent (next :: indents)).dedentTo column =
      ready c (.blockEnd :: tokens) next indents := by
  have hNot : ¬column < next := by omega
  simp only [dedentTo, inFlow, ready, List.isEmpty_nil, Bool.not_true, Bool.false_eq_true, if_false,
    dedentTo.go, h, if_true, push]
  cases indents with
  | nil => rw [dedentTo.go]
  | cons i r => rw [dedentTo.go, if_neg hNot]

/-- The end of a collection is seen at the next token. -/
theorem step_dedent {c : Cursor} {tokens : List Token} {indent next : Int} {indents : List Int}
    (hFresh : Fresh c.rest) (h : c.column < indent) (hNext : next ≤ c.column) :
    (ready c tokens indent (next :: indents)).step =
      (ready c (.blockEnd :: tokens) next indents).step := by
  have hSettle (tokens : List Token) (indent : Int) (indents : List Int) :
      (ready c tokens indent indents).settle = some (ready c tokens indent indents) :=
    settle_ready hFresh (gone_none c.line)
  rw [step, step, hSettle, hSettle, Option.bind_some, Option.bind_some]
  simp only [cursor_ready]
  rw [dedentTo_ready h hNext, dedentTo_of_le hNext]

theorem step_ready {c : Cursor} {tokens : List Token} {indent : Int} {indents : List Int}
    (hFresh : Fresh c.rest) (h : indent ≤ c.column) :
    (ready c tokens indent indents).step = (ready c tokens indent indents).dispatch := by
  have hSettle : (ready c tokens indent indents).settle = some (ready c tokens indent indents) :=
    settle_ready hFresh (gone_none c.line)
  rw [step, hSettle, Option.bind_some, dedentTo_of_le h]

/-! ## Texts -/

structure StartsPlain (cs : List Char) : Prop where
  starts : StartsSolid cs
  ne_nil : cs ≠ []
  indicator : ∀ c ∈ cs.head?, isIndicator c = false
  mark : ∀ c ∈ cs.head?, c = '-' ∨ c = '?' ∨ c = ':' → endsToken cs.tail.head? = false

section Text

variable {rest : List Char} {index line column : Nat} {tokens : List Token} {indent : Int}
  {indents : List Int}

theorem dispatch_plain (h : StartsPlain rest)
    (hMark : Cursor.atDocumentMark ⟨rest, index, line, column⟩ = false) :
    (ready ⟨rest, index, line, column⟩ tokens indent indents).dispatch =
      (ready ⟨rest, index, line, column⟩ tokens indent indents).addPlain := by
  obtain ⟨c, rest, rfl⟩ := List.exists_cons_of_ne_nil h.ne_nil
  have hIndicator := h.indicator c rfl
  have hOther : ∀ d, isIndicator d = true → c ≠ d := by
    rintro d hd rfl
    exact absurd hIndicator (by simp [hd])
  have hNext : c = '-' ∨ c = '?' ∨ c = ':' → endsToken (c :: rest)[1]? = false := by
    simpa [List.head?_eq_getElem?] using h.mark c rfl
  have hNot (d : Char) (hd : d = '-' ∨ d = '?' ∨ d = ':') :
      ¬(c = d ∧ Cursor.endsAt ⟨c :: rest, index, line, column⟩ 1 = true) := by
    rintro ⟨rfl, hEnds⟩
    simp only [Cursor.endsAt, hNext hd, Bool.false_eq_true] at hEnds
  have hStarts : startsPlain (ready ⟨c :: rest, index, line, column⟩ tokens indent indents) c
      (c :: rest)[1]? = true := by
    have hSolid := startsSolid_cons.mp h.starts
    unfold startsPlain
    split
    · rename_i hDash
      have hEnds := hNext (.inl hDash)
      cases hAfter : (c :: rest)[1]? with
      | none => rfl
      | some d =>
        rw [hAfter] at hEnds
        simp_all [endsToken]
    · split
      · rename_i hMark
        have hEnds := hNext (.inr (by simpa using hMark))
        rw [hEnds]
        rfl
      · simp [hSolid.1, hSolid.2, hIndicator]
  simp only [dispatch, cursor_ready, hMark, Bool.false_eq_true, if_false, hOther '%' (by decide),
    hOther '[' (by decide), hOther '\x7b' (by decide), hOther ']' (by decide),
    hOther '\x7d' (by decide), hOther ',' (by decide), hOther '*' (by decide),
    hOther '&' (by decide), hOther '!' (by decide), hOther '|' (by decide), hOther '>' (by decide),
    hOther '\'' (by decide), hOther '"' (by decide), and_false, false_and, or_self, inFlow_ready,
    Bool.false_or, hNot '-' (.inl rfl), hNot '?' (.inr (.inl rfl)), hNot ':' (.inr (.inr rfl)),
    hStarts, if_true]

theorem StartsPlain.append {cs : List Char} (h : StartsPlain cs) (rest : List Char) :
    StartsPlain (cs ++ rest) := by
  obtain ⟨c, cs, rfl⟩ := List.exists_cons_of_ne_nil h.ne_nil
  refine ⟨startsSolid_cons.mpr (startsSolid_cons.mp h.starts), by simp, h.indicator, ?_⟩
  intro d hd hMark
  have hEnds := h.mark d hd hMark
  cases cs with
  | nil => cases hEnds
  | cons e cs => exact hEnds

theorem StartsPlain.fresh {cs : List Char} (h : StartsPlain cs)
    (hPrintable : ∀ c ∈ cs.head?, isPrintable c = true) : Fresh cs := by
  refine ⟨h.starts, ?_, ?_⟩
  · intro hHash
    exact absurd (h.indicator '#' hHash) (by decide)
  · intro c hc hMark
    have := hPrintable c hc
    simp [isPrintable, hMark] at this

def keyAt (c : Cursor) (tokens : List Token) (indent : Int) : PossibleKey :=
  ⟨tokens.length, indent == c.column, c.index, c.line, c.column⟩

theorem dropKey_ready (c : Cursor) (tokens : List Token) (indent : Int) (indents : List Int) :
    (ready c tokens indent indents).dropKey = some (ready c tokens indent indents) :=
  rfl

theorem noteKey_ready (c : Cursor) (tokens : List Token) (indent : Int) (indents : List Int) :
    (ready c tokens indent indents).noteKey =
      some ⟨c, tokens, indent, indents, true, some (keyAt c tokens indent), []⟩ :=
  rfl

theorem gone_keyAt {c : Cursor} (h : indent < c.column) {line' : Nat} (hLine : c.line < line') :
    Gone line' (some (keyAt c tokens indent)) := by
  intro k hk
  obtain rfl := Option.some.inj hk
  refine ⟨?_, hLine⟩
  rw [keyAt, beq_eq_false_iff_ne]
  omega

theorem step_plain {c c' : Cursor} {text : List Char} {broken : Bool} (hStart : StartsPlain c.rest)
    (hFresh : Fresh c.rest) (hMark : c.atDocumentMark = false) (hIndent : indent ≤ c.column)
    (hScan : scanPlain false (indent + 1).toNat [] {} c (c.rest.length + 1) =
      some (text, broken, c')) :
    (ready c tokens indent indents).step =
      some ⟨c', .scalar true (String.ofList text) :: tokens, indent, indents, broken,
        some (keyAt c tokens indent), []⟩ := by
  rw [step_ready hFresh hIndent, dispatch_plain hStart hMark, addPlain, noteKey_ready]
  simp only [Option.bind_eq_bind, Option.bind_some, inFlow, List.isEmpty_nil, Bool.not_true, hScan]
  rfl

theorem leads_plain {cs : List Char} (hWords : Words cs) (hStart : StartsPlain cs)
    (hPrintable : ∀ c ∈ cs.head?, isPrintable c = true) {k m : Nat} (hColumn : k < column)
    (hM : m ≤ k) (hRest : Fresh rest) (index line : Nat) (tokens : List Token)
    (indents : List Int) :
    ∃ index' line', Leads
      (ready ⟨cs ++ '\n' :: (List.replicate m ' ' ++ rest), index, line, column⟩ tokens k indents)
      (ready ⟨rest, index', line', m⟩ (.scalar true (String.ofList cs) :: tokens) k indents) := by
  have hHash : cs.head? ≠ some '#' := (hStart.fresh hPrintable).no_comment
  have hFresh : Fresh (cs ++ '\n' :: (List.replicate m ' ' ++ rest)) := by
    apply (hStart.append _).fresh
    obtain ⟨c, cs, rfl⟩ := List.exists_cons_of_ne_nil hStart.ne_nil
    exact hPrintable
  have hScan : scanPlain false ((k : Int) + 1).toNat [] {}
      ⟨cs ++ '\n' :: (List.replicate m ' ' ++ rest), index, line, column⟩
      ((cs ++ '\n' :: (List.replicate m ' ' ++ rest)).length + 1) =
        some (cs, true, ⟨rest, index + cs.length + 1 + m, line + 1, m⟩) := by
    rw [scanPlain_words hWords hHash (by omega) (by omega) (by omega) hRest.starts [] {}
      (by rw [List.length_append]; omega)]
    rfl
  have hStep := @step_plain tokens k indents _ _ _ _ (hStart.append _) hFresh
    (atDocumentMark_of_column (by simp only; omega)) (by simp only; omega) hScan
  refine ⟨_, _, (leads_of_step hStep (by simp) ?_).trans
    (leads_ready hRest (gone_keyAt (by simp only; omega) (by simp only; omega)))⟩
  simp
  omega

theorem fresh_quote {quote : Char} (h : quote = '\'' ∨ quote = '"') (rest : List Char) :
    Fresh (quote :: rest) := by
  refine ⟨startsSolid_cons.mpr ?_, ?_, ?_⟩
  · rcases h with rfl | rfl <;> exact ⟨by decide, by decide⟩
  · rcases h with rfl | rfl <;> simp
  · rcases h with rfl | rfl <;> simp

theorem step_quoted {quote : Char} (hQuote : quote = '\'' ∨ quote = '"') {text : List Char}
    {c' : Cursor} (hColumn : column ≠ 0) (hIndent : indent ≤ column)
    (hScan : scanQuoted quote [] ⟨rest, index + 1, line, column + 1⟩ (rest.length + 2) =
      some (text, c')) :
    (ready ⟨quote :: rest, index, line, column⟩ tokens indent indents).step =
      some ⟨c', .scalar false (String.ofList text) :: tokens, indent, indents, false,
        some (keyAt ⟨quote :: rest, index, line, column⟩ tokens indent), []⟩ := by
  have hMark : Cursor.atDocumentMark ⟨quote :: rest, index, line, column⟩ = false :=
    atDocumentMark_of_column hColumn
  have hDispatch : (ready ⟨quote :: rest, index, line, column⟩ tokens indent indents).dispatch =
      (ready ⟨quote :: rest, index, line, column⟩ tokens indent indents).addQuoted quote := by
    rcases hQuote with rfl | rfl <;> simp [dispatch, hMark]
  rw [step_ready (fresh_quote hQuote rest) hIndent, hDispatch, addQuoted, noteKey_ready]
  simp only [Option.bind_eq_bind, Option.bind_some, Cursor.skip_mk, List.drop_one, List.tail_cons,
    List.length_cons, hScan]
  rfl

theorem leads_quoted {quote : Char} (hQuote : quote = '\'' ∨ quote = '"')
    {encode : Char → List Char} {inWord : Char → Prop} (hEncodes : Encodes quote encode inWord)
    {n k m : Nat} {text printed : List Char} (hQuoted : Quoted encode inWord n text printed)
    (hN : 0 < n) (hColumn : k < column) (hRest : Fresh rest) (index line : Nat)
    (tokens : List Token) (indents : List Int) :
    ∃ index' line', Leads
      (ready ⟨quote :: (printed ++ quote :: '\n' :: (List.replicate m ' ' ++ rest)),
        index, line, column⟩ tokens k indents)
      (ready ⟨rest, index', line', m⟩ (.scalar false (String.ofList text) :: tokens) k
        indents) := by
  have hTail : ('\n' :: (List.replicate m ' ' ++ rest)).head? ≠ some '\'' := by simp
  obtain ⟨index', line', column', hLine, hScan⟩ := scanQuoted_of_quoted hEncodes hQuoted hTail hN
    (index + 1) line (column + 1) (by omega) []
    ((printed ++ quote :: '\n' :: (List.replicate m ' ' ++ rest)).length + 2)
    (by rw [List.length_append]; omega)
  have hStep := @step_quoted _ index line column tokens k indents quote hQuote _ _ (by omega)
    (by omega) hScan
  refine ⟨_, _, (leads_of_step hStep (by simp) ?_).trans
    (leads_newline hRest (gone_keyAt (by simp only; omega) (by simp only; omega)) m)⟩
  simp
  omega

theorem fresh_block (rest : List Char) : Fresh ('|' :: rest) :=
  ⟨startsSolid_cons.mpr ⟨by decide, by decide⟩, by simp, by simp⟩

theorem leads_block {cs : List Char} (hNil : cs ≠ []) (hPrintable : ∀ c ∈ cs, isPrintable c = true)
    {k m : Nat} (hColumn : k < column) (hM : m ≤ k) (hRest : Fresh rest) (index line : Nat)
    (tokens : List Token) (indents : List Int) :
    ∃ index' line', Leads
      (ready ⟨'|' :: (literalText (k + 2) cs ++ (List.replicate m ' ' ++ rest)),
        index, line, column⟩ tokens k indents)
      (ready ⟨rest, index', line', m⟩ (.scalar false (String.ofList cs) :: tokens) k indents) := by
  obtain ⟨index', line', -, hScan⟩ := scanBlock_literal hNil hPrintable hM hRest.starts (index + 1)
    line (column + 1)
  have hMark : Cursor.atDocumentMark ⟨'|' :: (literalText (k + 2) cs ++
      (List.replicate m ' ' ++ rest)), index, line, column⟩ = false :=
    atDocumentMark_of_column (by simp only; omega)
  have hStep : (ready ⟨'|' :: (literalText (k + 2) cs ++ (List.replicate m ' ' ++ rest)),
      index, line, column⟩ tokens k indents).step =
        some (ready ⟨rest, index', line', m⟩ (.scalar false (String.ofList cs) :: tokens) k
          indents) := by
    rw [step_ready (fresh_block _) (by simp only; omega)]
    have hDispatch (s : Scanner) (hFlow : s.inFlow = false) (rest : List Char)
        (hRest : s.cursor.rest = '|' :: rest) (hMark : s.cursor.atDocumentMark = false) :
        s.dispatch = s.addBlock false := by
      simp [dispatch, hRest, hMark, hFlow]
    rw [hDispatch _ rfl _ rfl hMark, addBlock]
    simp only [dropKey_ready, Option.bind_eq_bind, Option.bind_some, cursor_ready, indent_ready,
      Cursor.skip_mk, List.drop_one, List.tail_cons, hScan]
    rfl
  refine ⟨index', line', leads_of_step hStep (by simp [ready]) ?_⟩
  simp
  omega

theorem of_styleOf_eq_plain {isKey : Bool} {s : String} (h : styleOf isKey s = .plain) :
    allowsPlain s.toList = true := by
  unfold styleOf at h
  grind

theorem of_styleOf_eq_single {s : String} (h : styleOf false s = .single) :
    '\n' ∉ s.toList ∧ allowsSingle s.toList = true := by
  unfold styleOf at h
  grind

theorem of_styleOf_eq_literal {s : String} (h : styleOf false s = .literal) :
    allowsLiteral s.toList = true := by
  unfold styleOf at h
  grind

theorem isPrintable_of_allowsPlain {cs : List Char} (h : allowsPlain cs = true) {c : Char}
    (hc : c ∈ cs) : isPrintable c = true := by
  simp only [allowsPlain, Bool.and_eq_true, Bool.not_eq_true'] at h
  exact isPrintable_of_isSpecial h.1.1.1.2 hc

theorem startsPlain_of_allowsPlain {cs : List Char} (h : allowsPlain cs = true) :
    StartsPlain cs := by
  have hWords := words_of_allowsPlain h
  have hIndicator : startsIndicator cs = false := by
    simp only [allowsPlain, Bool.and_eq_true, Bool.not_eq_true'] at h
    exact h.1.2
  obtain ⟨c, rest, rfl⟩ := List.exists_cons_of_ne_nil hWords.ne_nil
  simp only [startsIndicator, Bool.or_eq_false_iff] at hIndicator
  refine ⟨by simpa using hWords.startsSolid [], List.cons_ne_nil c rest, ?_, ?_⟩
  · intro d hd
    obtain rfl := Option.some.inj hd
    exact hIndicator.2.1
  · intro d hd hMark
    obtain rfl := Option.some.inj hd
    have hHere := hIndicator.2.2
    rw [Bool.and_eq_false_iff] at hHere
    refine hHere.resolve_left ?_
    rcases hMark with rfl | rfl | rfl <;> simp

theorem single_of_allowsSingle {cs : List Char} (hFeed : '\n' ∉ cs) (h : allowsSingle cs = true) :
    Single cs := by
  simp only [allowsSingle, Bool.and_eq_true, Bool.not_eq_true'] at h
  have hSpecial := h.1
  refine ⟨fun c hc => isPrintable_of_isSpecial hSpecial hc, hFeed, ?_, h.2⟩
  rw [isSpecial, Bool.or_eq_false_iff] at hSpecial
  exact hSpecial.2

def textToken (s : String) : Token := .scalar (styleOf false s = .plain) s

/-- A text is read back, whatever its style, up to the start of the next line. -/
theorem leads_text (s : String) {k m : Nat} (hColumn : k < column) (hM : m ≤ k)
    (hRest : Fresh rest) (index line : Nat) (tokens : List Token) (indents : List Int) :
    ∃ index' line', Leads
      (ready ⟨(textLine (k + 2) s).toList ++ (List.replicate m ' ' ++ rest), index, line, column⟩
        tokens k indents)
      (ready ⟨rest, index', line', m⟩ (textToken s :: tokens) k indents) := by
  unfold textLine textToken
  cases hStyle : styleOf false s with
  | plain =>
    have hPlain := of_styleOf_eq_plain hStyle
    have hPrintable : ∀ c ∈ s.toList.head?, isPrintable c = true := fun c hc =>
      isPrintable_of_allowsPlain hPlain (List.mem_of_mem_head? hc)
    simpa using leads_plain (words_of_allowsPlain hPlain) (startsPlain_of_allowsPlain hPlain)
      hPrintable hColumn hM hRest index line tokens indents
  | single =>
    obtain ⟨hFeed, hAllows⟩ := of_styleOf_eq_single hStyle
    have hQuoted := (single_of_allowsSingle hFeed hAllows).quoted (k + 2) s.toList
    simpa [singleQuoted] using leads_quoted (.inl rfl) encodes_doubled hQuoted (Nat.succ_pos _)
      hColumn hRest index line tokens indents
  | double =>
    have hQuoted := quoted_flatMap_escapeChar 1 s.toList
    simpa [doubleQuoted] using leads_quoted (.inr rfl) encodes_escapeChar hQuoted Nat.one_pos
      hColumn hRest index line tokens indents
  | literal =>
    have hLiteral := of_styleOf_eq_literal hStyle
    simp only [allowsLiteral, Bool.and_eq_true, Bool.not_eq_true', decide_eq_true_eq] at hLiteral
    have hPrintable : ∀ c ∈ s.toList, isPrintable c = true := fun c hc =>
      isPrintable_of_isSpecial hLiteral.1.2 hc
    simpa [toList_literal] using leads_block hLiteral.1.1 hPrintable hColumn hM hRest index line
      tokens indents

end Text

end ClusterInventory.Yaml.Scanner
