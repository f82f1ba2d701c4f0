import ClusterInventory.Output
import ClusterInventory.Proofs.Yaml.Scanning

/-! # Documents in a stream

A stream is cut at the lines that are exactly the mark of a document. No line of a printed object
is one: a line at the margin shows a key or its colon, and the lines of a text stand further in. So
the pieces between the marks are the documents as they were printed.

Which characters end a line is a parameter, since a text may end with a separator of lines or of
paragraphs, which ends a line of a document but not one of a plain file.
-/

namespace ClusterInventory.Yaml

/-! ## Cutting -/

def mark : List Char := ['-', '-', '-']

def linesOf (isEnd : Char → Bool) : List Char → List (List Char)
  | [] => []
  | c :: rest =>
      if isEnd c then [c] :: linesOf isEnd rest
      else match linesOf isEnd rest with
        | [] => [[c]]
        | line :: later => (c :: line) :: later

def isMark (isEnd : Char → Bool) (line : List Char) : Bool := line.takeWhile (!isEnd ·) == mark

/-- The text between the marks; there is a piece before the first mark and one after the last. -/
def piecesOf (isEnd : Char → Bool) : List (List Char) → List (List Char)
  | [] => [[]]
  | line :: later =>
      if isMark isEnd line then [] :: piecesOf isEnd later
      else match piecesOf isEnd later with
        | [] => [line]
        | piece :: pieces => (line ++ piece) :: pieces

/-- Cuts a text at the lines that are exactly the mark. -/
def cutAtMarks (isEnd : Char → Bool) (text : String) : List String :=
  (piecesOf isEnd (linesOf isEnd text.toList)).map String.ofList

theorem ne_mark {line : List Char} {d : Char} (hOther : d ∈ line) (hDash : d ≠ '-') :
    line ≠ mark := by
  rintro rfl
  exact hDash (by simpa [mark] using hOther)

inductive Unmarked (isEnd : Char → Bool) : List Char → Prop where
  | nil : Unmarked isEnd []
  | line {front rest : List Char} {b : Char} : (∀ c ∈ front, isEnd c = false) → isEnd b = true →
      front ≠ mark → Unmarked isEnd rest → Unmarked isEnd (front ++ b :: rest)

section Cutting

variable {isEnd : Char → Bool}

theorem linesOf_line {front : List Char} {b : Char} (hFront : ∀ c ∈ front, isEnd c = false)
    (hBreak : isEnd b = true) (rest : List Char) :
    linesOf isEnd (front ++ b :: rest) = (front ++ [b]) :: linesOf isEnd rest := by
  induction front with
  | nil => simp [linesOf, hBreak]
  | cons c front ih =>
    have hHere := hFront c List.mem_cons_self
    have hLater := ih fun d hd => hFront d (List.mem_cons_of_mem c hd)
    simp [linesOf, hHere, hLater]

theorem isMark_line {front : List Char} {b : Char} (hFront : ∀ c ∈ front, isEnd c = false)
    (hBreak : isEnd b = true) : isMark isEnd (front ++ [b]) = (front == mark) := by
  have hBefore : (front ++ [b]).takeWhile (!isEnd ·) = front := by
    rw [List.takeWhile_append_of_pos fun c hc => by simp [hFront c hc]]
    simp [hBreak]
  rw [isMark, hBefore]

/-- Lines that are no marks belong to the piece that goes on after them. -/
theorem piecesOf_unmarked {front : List Char} (h : Unmarked isEnd front) {rest piece : List Char}
    {pieces : List (List Char)} (hRest : piecesOf isEnd (linesOf isEnd rest) = piece :: pieces) :
    piecesOf isEnd (linesOf isEnd (front ++ rest)) = (front ++ piece) :: pieces := by
  induction h with
  | nil => exact hRest
  | line hFront hBreak hMark _ ih =>
    rw [List.append_assoc, List.cons_append, linesOf_line hFront hBreak, piecesOf,
      isMark_line hFront hBreak, if_neg (by simpa using hMark), ih]
    simp

theorem piecesOf_mark {b : Char} (hBreak : isEnd b = true) (hMark : isEnd '-' = false)
    (rest : List Char) : piecesOf isEnd (linesOf isEnd (mark ++ b :: rest)) =
      [] :: piecesOf isEnd (linesOf isEnd rest) := by
  have hFront : ∀ c ∈ mark, isEnd c = false := by simp [mark, hMark]
  rw [linesOf_line hFront hBreak, piecesOf, isMark_line hFront hBreak, if_pos (by simp)]

theorem piecesOf_stream (hNewline : isEnd '\n' = true) (hMark : isEnd '-' = false)
    (documents : List (List Char)) (h : ∀ d ∈ documents, Unmarked isEnd d) :
    piecesOf isEnd (linesOf isEnd (documents.flatMap fun d => mark ++ '\n' :: d)) =
      [] :: documents := by
  induction documents with
  | nil => rfl
  | cons d documents ih =>
    have hLater := ih fun e he => h e (List.mem_cons_of_mem d he)
    rw [List.flatMap_cons, List.append_assoc, List.cons_append, piecesOf_mark hNewline hMark,
      piecesOf_unmarked (h d List.mem_cons_self) hLater, List.append_nil]

theorem Unmarked.append {front rest : List Char} (h : Unmarked isEnd front)
    (hRest : Unmarked isEnd rest) : Unmarked isEnd (front ++ rest) := by
  induction h with
  | nil => exact hRest
  | line hFront hBreak hMark _ ih =>
    rw [List.append_assoc, List.cons_append]
    exact .line hFront hBreak hMark ih

/-- A line that goes on in a longer one is not the mark if something else than a dash is between. -/
theorem Unmarked.join {front rest : List Char} {d : Char} (h : Unmarked isEnd rest)
    (hNil : rest ≠ []) (hFront : ∀ c ∈ front, isEnd c = false) (hHere : isEnd d = false)
    (hDash : d ≠ '-') : Unmarked isEnd (front ++ d :: rest) := by
  cases h with
  | nil => exact absurd rfl hNil
  | @line next after b hNext hBreak _ hAfter =>
    have hLine : front ++ d :: (next ++ b :: after) = (front ++ d :: next) ++ b :: after := by simp
    rw [hLine]
    exact .line (List.forall_mem_append.mpr ⟨hFront, List.forall_mem_cons.mpr ⟨hHere, hNext⟩⟩)
      hBreak (ne_mark (List.mem_append_right front List.mem_cons_self) hDash) hAfter

/-- Fewer breaks make longer lines, and a line that holds a break is not the mark. -/
theorem Unmarked.coarser {isFewer : Char → Bool} (hFewer : ∀ c, isFewer c = true → isEnd c = true)
    (hMark : isEnd '-' = false) {cs : List Char} (h : Unmarked isEnd cs)
    (hLast : ∀ c ∈ cs.getLast?, isFewer c = true) : Unmarked isFewer cs := by
  have hNone : ∀ c, isEnd c = false → isFewer c = false := fun c hc => by
    cases hHere : isFewer c with
    | false => rfl
    | true => exact absurd (hFewer c hHere) (by simp [hc])
  induction h with
  | nil => exact .nil
  | @line front rest b hFront hBreak hOther hRest ih =>
    have hInLine : ∀ c ∈ front, isFewer c = false := fun c hc => hNone c (hFront c hc)
    have hRestLast : ∀ c ∈ rest.getLast?, isFewer c = true := fun c hc => hLast c (by
      cases rest with
      | nil => simp at hc
      | cons d rest => simpa [List.getLast?_append, List.getLast?_cons_cons] using hc)
    cases hHere : isFewer b with
    | true => exact .line hInLine hHere hOther (ih hRestLast)
    | false =>
      -- The line goes on behind the break, up to the next break that counts.
      have hNil : rest ≠ [] := by
        rintro rfl
        have hEnd : isFewer b = true := hLast b (by simp)
        exact absurd hEnd (by simp [hHere])
      have hDash : b ≠ '-' := fun hSame => absurd hBreak (by simp [hSame, hMark])
      exact (ih hRestLast).join hNil hInLine hHere hDash

end Cutting

/-! ## Printing -/

inductive Continues : List Char → Prop where
  | intro {front rest : List Char} {b : Char} : (∀ c ∈ front, isBreak c = false) →
      isBreak b = true → Unmarked isBreak rest → Continues (front ++ b :: rest)

theorem Continues.newline {rest : List Char} (h : Unmarked isBreak rest) :
    Continues ('\n' :: rest) :=
  @Continues.intro [] rest '\n' (by simp) (by decide) h

theorem Continues.prepend {front rest : List Char} (hFront : ∀ c ∈ front, isBreak c = false)
    (h : Continues rest) : Continues (front ++ rest) := by
  obtain ⟨hHere, hBreak, hRest⟩ := h
  rw [← List.append_assoc]
  exact .intro (List.forall_mem_append.mpr ⟨hFront, hHere⟩) hBreak hRest

theorem Continues.append {front rest : List Char} (h : Continues front)
    (hRest : Unmarked isBreak rest) : Continues (front ++ rest) := by
  obtain ⟨hHere, hBreak, hFront⟩ := h
  rw [List.append_assoc, List.cons_append]
  exact .intro hHere hBreak (hFront.append hRest)

/-- The rest of a line that is not the mark, as something else than a dash stands in it, and whole
lines after it. -/
inductive Shows : List Char → Prop where
  | intro {front rest : List Char} {d : Char} : (∀ c ∈ front, isBreak c = false) →
      isBreak d = false → d ≠ '-' → Continues rest → Shows (front ++ d :: rest)

theorem Continues.after {rest : List Char} (h : Continues rest) {d : Char}
    (hHere : isBreak d = false) (hDash : d ≠ '-') : Shows (d :: rest) :=
  @Shows.intro [] rest d (by simp) hHere hDash h

theorem Shows.prepend {front rest : List Char} (hFront : ∀ c ∈ front, isBreak c = false)
    (h : Shows rest) : Shows (front ++ rest) := by
  obtain ⟨hBefore, hHere, hDash, hRest⟩ := h
  rw [← List.append_assoc]
  exact .intro (List.forall_mem_append.mpr ⟨hFront, hBefore⟩) hHere hDash hRest

theorem Shows.append {front rest : List Char} (h : Shows front)
    (hRest : Unmarked isBreak rest) : Shows (front ++ rest) := by
  obtain ⟨hBefore, hHere, hDash, hFront⟩ := h
  rw [List.append_assoc, List.cons_append]
  exact .intro hBefore hHere hDash (hFront.append hRest)

theorem Shows.continues {cs : List Char} (h : Shows cs) : Continues cs := by
  obtain ⟨hBefore, hHere, -, hRest⟩ := h
  rw [List.append_cons]
  exact hRest.prepend (List.forall_mem_append.mpr ⟨hBefore, List.forall_mem_singleton.mpr hHere⟩)

theorem Shows.unmarked {cs : List Char} (h : Shows cs) : Unmarked isBreak cs := by
  obtain @⟨before, _, d, hBefore, hHere, hDash, @⟨after, rest, b, hAfter, hBreak, hRest⟩⟩ := h
  have hLine : before ++ d :: (after ++ b :: rest) = (before ++ d :: after) ++ b :: rest := by simp
  rw [hLine]
  exact .line (List.forall_mem_append.mpr ⟨hBefore, List.forall_mem_cons.mpr ⟨hHere, hAfter⟩⟩)
    hBreak (ne_mark (List.mem_append_right before List.mem_cons_self) hDash) hRest

theorem isBreak_of_mem_replicate {n : Nat} {c : Char} (h : c ∈ List.replicate n ' ') :
    isBreak c = false := by
  rw [List.eq_of_mem_replicate h]
  decide

theorem Continues.indented {n : Nat} (hIndent : 0 < n) {rest : List Char} (h : Continues rest) :
    Unmarked isBreak (List.replicate n ' ' ++ rest) := by
  obtain ⟨n, rfl⟩ : ∃ k, n = k + 1 := Nat.exists_eq_succ_of_ne_zero (Nat.ne_of_gt hIndent)
  have hLine : Continues (List.replicate n ' ' ++ rest) :=
    h.prepend fun c hc => isBreak_of_mem_replicate hc
  exact (hLine.after (d := ' ') (by decide) (by decide)).unmarked

/-! ## Texts -/

def Unbroken (s : String) : Prop := ∀ c ∈ s.toList, isBreak c = false

instance (s : String) : Decidable (Unbroken s) :=
  decidable_of_iff ((s.toList.all fun c => !isBreak c) = true) (by simp [Unbroken])

theorem Unbroken.append {s t : String} (hs : Unbroken s) (ht : Unbroken t) : Unbroken (s ++ t) := by
  intro c hc
  rw [String.toList_append] at hc
  exact (List.mem_append.mp hc).elim (hs c) (ht c)

theorem Unbroken.continues {s : String} (h : Unbroken s) : Continues (s ++ "\n").toList := by
  rw [String.toList_append]
  exact (Continues.newline .nil).prepend h

theorem unbroken_spaces (n : Nat) : Unbroken (spaces n) := fun c hc =>
  isBreak_of_mem_replicate (by rwa [spaces, String.toList_ofList] at hc)

theorem unbroken_doubleQuoted (s : String) : Unbroken (doubleQuoted s) :=
  fun _ hc => (isPrintable_isBreak_of_mem_doubleQuoted hc).2

/-- A text in single quotes goes on within a line, or at the indentation after a break. -/
theorem continues_singleQuotedBody {indent : Nat} (hIndent : 0 < indent) {rest : List Char}
    (hRest : Continues rest) (cs : List Char) :
    Continues (singleQuotedBody indent false cs ++ rest) ∧
      Unmarked isBreak (singleQuotedBody indent true cs ++ rest) := by
  induction cs with
  | nil => exact ⟨hRest, hRest.indented hIndent⟩
  | cons c cs ih =>
    obtain ⟨hSame, hNext⟩ := ih
    cases hBreak : isBreak c with
    | true =>
      simp only [singleQuotedBody, hBreak, if_true, List.cons_append]
      exact ⟨@Continues.intro [] _ c (by simp) hBreak hNext,
        @Unmarked.line isBreak [] _ c (by simp) hBreak (by simp [mark]) hNext⟩
    | false =>
      have hHere : ∀ d ∈ if c = '\'' then [c, c] else [c], isBreak d = false := by
        intro d hd
        obtain rfl : d = c := by split at hd <;> simpa using hd
        exact hBreak
      simp only [singleQuotedBody, hBreak, Bool.false_eq_true, if_false, if_true, List.nil_append,
        List.append_assoc]
      have hLine := hSame.prepend hHere
      exact ⟨hLine, hLine.indented hIndent⟩

theorem continues_singleQuoted {indent : Nat} (hIndent : 0 < indent) (s : String) :
    Continues (singleQuoted indent s ++ "\n").toList := by
  have hQuote : Unbroken "'" := by decide
  have hEnd := (Continues.newline .nil).prepend hQuote
  have hBody := continues_singleQuotedBody hIndent hEnd s.toList
  simpa [singleQuoted] using hBody.1.prepend hQuote

/-- What is added to a block so that it ends with a break; its lines start after one. -/
def blockEnd (afterBreak : Bool) (cs : List Char) : List Char :=
  if (cs.getLast?.map isBreak).getD afterBreak then [] else ['\n']

theorem blockEnd_cons (afterBreak : Bool) (c : Char) (cs : List Char) :
    blockEnd afterBreak (c :: cs) = blockEnd (isBreak c) cs := by
  cases cs with
  | nil => rfl
  | cons d cs => simp only [blockEnd, List.getLast?_cons, Option.map_some, Option.getD_some]

theorem unmarked_literalBody {indent : Nat} (hIndent : 0 < indent) (cs : List Char) :
    Continues (literalBody indent false cs ++ blockEnd false cs) ∧
      Unmarked isBreak (literalBody indent true cs ++ blockEnd true cs) := by
  induction cs with
  | nil => exact ⟨.newline .nil, .nil⟩
  | cons c cs ih =>
    obtain ⟨hSame, hNext⟩ := ih
    rw [blockEnd_cons, blockEnd_cons]
    cases hBreak : isBreak c with
    | true =>
      simp only [literalBody, hBreak, if_true, List.cons_append]
      exact ⟨@Continues.intro [] _ c (by simp) hBreak hNext,
        @Unmarked.line isBreak [] _ c (by simp) hBreak (by simp [mark]) hNext⟩
    | false =>
      simp only [literalBody, hBreak, Bool.false_eq_true, if_false, if_true, List.nil_append,
        List.append_assoc]
      have hHere : ∀ d ∈ [c], isBreak d = false := by simpa using hBreak
      have hLine := hSame.prepend hHere
      exact ⟨hLine, hLine.indented hIndent⟩

theorem continues_literal {indent : Nat} (hIndent : 0 < indent) {s : String}
    (h : s.toList ≠ []) : Continues (literal indent s).toList := by
  have hEnd : (if s.toList.getLast?.any isBreak then "" else "\n").toList =
      blockEnd true s.toList := by
    rw [List.getLast?_eq_some_getLast h, blockEnd, List.getLast?_eq_some_getLast h]
    simp only [Option.any_some, Option.map_some, Option.getD_some]
    split <;> rfl
  have hBlock : Continues ('\n' :: (literalBody indent true s.toList ++ blockEnd true s.toList)) :=
    .newline (unmarked_literalBody hIndent s.toList).2
  have hHint : Unbroken (if s.toList.head?.any fun c => c = ' ' || isBreak c then "2" else "") := by
    split <;> decide
  have hChomping : Unbroken (chomping s.toList) := by
    rcases chomping_cases s.toList with h | h | h <;> rw [h] <;> decide
  have hHeader := (Unbroken.append (s := "|") (by decide) hHint).append hChomping
  have hAll := hBlock.prepend hHeader
  simp only [literal, String.toList_append, hEnd, String.toList_ofList]
  simpa using hAll

theorem unbroken_of_allowsPlain {s : String} (h : allowsPlain s.toList = true) : Unbroken s := by
  intro c hc
  simp only [allowsPlain, Bool.and_eq_true, Bool.not_eq_true', List.any_eq_false] at h
  simpa using h.1.1.2 c hc

/-- A written text ends the line it starts on, and its other lines are indented. -/
theorem continues_textLine {indent : Nat} (hIndent : 0 < indent) (s : String) :
    Continues (textLine indent s).toList := by
  unfold textLine
  cases hStyle : styleOf false s with
  | plain => exact (unbroken_of_allowsPlain (Scanner.of_styleOf_eq_plain hStyle)).continues
  | single => exact continues_singleQuoted hIndent s
  | double => exact (unbroken_doubleQuoted s).continues
  | literal =>
    have hLiteral := Scanner.of_styleOf_eq_literal hStyle
    simp only [allowsLiteral, Bool.and_eq_true, decide_eq_true_eq] at hLiteral
    exact continues_literal hIndent (by simpa using hLiteral.1.1)

/-- Before its colon a key stays in its line. -/
theorem unbroken_keyText (indent : Nat) {s : String} (h : isSimpleKey s = true) :
    Unbroken (keyText indent s) := by
  have hSelf : Unbroken s := by
    obtain ⟨hNone, -⟩ := Bool.and_eq_true_iff.mp h
    simpa [Unbroken] using hNone
  unfold keyText
  split
  · exact hSelf
  · intro c hc
    rcases mem_singleQuoted hc with rfl | rfl | hText
    · decide
    · decide
    · exact hSelf c hText
  · exact unbroken_doubleQuoted s

/-! ## Numbers -/

theorem unbroken_ofList {cs : List Char} (h : ∀ c ∈ cs, isBreak c = false) :
    Unbroken (String.ofList cs) := by
  rwa [Unbroken, String.toList_ofList]

theorem isBreak_of_isDigit {c : Char} (h : c.isDigit = true) : isBreak c = false := by
  have hRange : 48 ≤ c.toNat ∧ c.toNat ≤ 57 := by
    simpa [Char.isDigit, UInt32.le_iff_toNat_le] using h
  have hNewline : c ≠ '\n' := fun hEqual => by simp [hEqual] at hRange
  have hReturn : c ≠ '\r' := fun hEqual => by simp [hEqual] at hRange
  simp [isBreak, hNewline, hReturn]
  omega

theorem unbroken_repr (n : Nat) : Unbroken n.repr := by
  intro c hc
  rw [Nat.toList_repr] at hc
  exact isBreak_of_isDigit (Nat.isDigit_of_mem_toDigits (by decide) (by decide) hc)

theorem unbroken_toString (n : Int) : Unbroken (toString n) := by
  rw [Int.toString_eq_repr, Int.repr_eq_if]
  split
  · exact unbroken_repr n.toNat
  · exact Unbroken.append (by decide) (unbroken_repr (-n).toNat)

theorem unbroken_write {positive : String} (h : Unbroken positive) (d : Double) :
    Unbroken (d.write positive) := by
  have hZeros (n : Nat) : Unbroken (String.ofList (List.replicate n '0')) :=
    unbroken_ofList fun c hc => by
      rw [List.eq_of_mem_replicate hc]
      decide
  unfold Double.write
  extract_lets s trimmed text count place sign power mantissa mark
  have hText : Unbroken text := unbroken_repr trimmed.digits
  have hSign : Unbroken sign := by
    unfold sign
    split <;> decide
  split
  · exact hSign.append (by decide)
  split
  · exact ((hSign.append hText).append (hZeros _)).append (by decide)
  split
  · exact ((hSign.append (unbroken_ofList fun c hc => hText c (List.mem_of_mem_take hc))).append
      (by decide)).append (unbroken_ofList fun c hc => hText c (List.mem_of_mem_drop hc))
  split
  · exact ((hSign.append (by decide)).append (hZeros _)).append hText
  have hMantissa : Unbroken mantissa := by
    unfold mantissa
    split
    · decide
    · rename_i c hOne
      exact fun d hd => hText d (by simpa [hOne] using hd)
    · rename_i c r _ hMore
      have hFirst : Unbroken (String.singleton c) := fun d hd => hText d (by
        obtain rfl : d = c := by simpa using hd
        simp [hMore])
      exact (hFirst.append (by decide)).append (unbroken_ofList fun d hd => hText d (by
        simp [hMore, hd]))
  have hPower : Unbroken mark := by
    unfold mark
    split
    · decide
    · exact h
  exact (((hSign.append hMantissa).append (by decide)).append hPower).append (unbroken_repr _)

theorem unbroken_writeDouble (d : Double) : Unbroken (writeDouble d) := by
  unfold writeDouble
  split
  · decide
  split
  · exact unbroken_write (by decide) d
  split <;> decide

/-! ## Values -/

theorem Unbroken.shows {s : String} (h : Unbroken s) : Shows (" " ++ (s ++ "\n")).toList := by
  rw [String.toList_append]
  exact h.continues.after (by decide) (by decide)

mutual

/-- What follows a dash shows more than dashes, and what follows a key goes on in its line. -/
theorem shows_value (indent : Nat) : (v : Json) →
    Shows (afterDash indent v).toList ∧ Continues (afterKey indent v).toList
  | .null => by
    have hText : Shows " null\n".toList := by
      simpa using Unbroken.shows (s := "null") (by decide)
    exact ⟨hText, hText.continues⟩
  | .bool b => by
    have hText : Shows (if b then " true\n" else " false\n").toList := by
      cases b
      · simpa using Unbroken.shows (s := "false") (by decide)
      · simpa using Unbroken.shows (s := "true") (by decide)
    exact ⟨hText, hText.continues⟩
  | .int n => by
    have hText := (unbroken_toString n).shows
    rw [← String.append_assoc] at hText
    exact ⟨hText, hText.continues⟩
  | .double d => by
    have hText := (unbroken_writeDouble d).shows
    rw [← String.append_assoc] at hText
    exact ⟨hText, hText.continues⟩
  | .string s => by
    have hText : Shows (" " ++ textLine (indent + 2) s).toList := by
      rw [String.toList_append]
      exact (continues_textLine (Nat.succ_pos _) s).after (by decide) (by decide)
    exact ⟨hText, hText.continues⟩
  | .array [] => by
    have hText : Shows " []\n".toList := by simpa using Unbroken.shows (s := "[]") (by decide)
    exact ⟨hText, hText.continues⟩
  | .array (v :: r) => by
    have hDash : Unbroken " -" := by decide
    constructor
    · simp only [afterDash, String.toList_append]
      exact ((shows_value (indent + 2) v).1.prepend hDash).append (unmarked_items (indent + 2) r)
    · have hItems := unmarked_items indent (v :: r)
      simp only [items, String.toList_append] at hItems
      simp only [afterKey, String.toList_append]
      simpa using Continues.newline hItems
  | .object [] => by
    have hText : Shows " \x7b\x7d\n".toList := by
      simpa using Unbroken.shows (s := "\x7b\x7d") (by decide)
    exact ⟨hText, hText.continues⟩
  | .object (e :: r) => by
    have hBlank : Unbroken " " := by decide
    constructor
    · simp only [afterDash, String.toList_append]
      exact ((shows_entry (indent + 2) e).prepend hBlank).append (unmarked_entries (indent + 2) r)
    · have hFields := unmarked_entries (indent + 2) (e :: r)
      simp only [entries, String.toList_append] at hFields
      simp only [afterKey, String.toList_append]
      simpa using Continues.newline hFields

theorem unmarked_items (indent : Nat) : (vs : List Json) →
    Unmarked isBreak (items indent vs).toList
  | [] => .nil
  | v :: r => by
    simp only [items, String.toList_append]
    have hDash : Unbroken "-" := by decide
    have hFirst := ((shows_value indent v).1.prepend hDash).prepend (unbroken_spaces indent)
    rw [← List.append_assoc] at hFirst
    exact hFirst.unmarked.append (unmarked_items indent r)

theorem shows_entry (indent : Nat) : (e : String × Json) → Shows (entry indent e).toList
  | (k, v) => by
    unfold entry
    split
    · rename_i hSimple
      have hValue := (shows_value indent v).2.after (d := ':') (by decide) (by decide)
      have hLine := hValue.prepend (unbroken_keyText (indent + 2) hSimple)
      simpa using hLine
    · -- The colon of a long key stands on a line of its own.
      have hColon : Unbroken ":" := by decide
      have hValue := ((shows_value indent v).1.prepend hColon).prepend (unbroken_spaces indent)
      have hBlank : Unbroken " " := by decide
      have hKey := (continues_textLine (Nat.succ_pos (indent + 1)) k).prepend hBlank
      have hLine := (hKey.after (d := '?') (by decide) (by decide)).append hValue.unmarked
      simpa using hLine

theorem unmarked_entries (indent : Nat) : (es : List (String × Json)) →
    Unmarked isBreak (entries indent es).toList
  | [] => .nil
  | e :: r => by
    simp only [entries, String.toList_append]
    exact ((shows_entry indent e).prepend (unbroken_spaces indent)).unmarked.append
      (unmarked_entries indent r)

end

theorem unmarked_print_object (e : String × Json) (fields : List (String × Json)) :
    Unmarked isBreak (print (.object (e :: fields))).toList :=
  unmarked_entries 0 (e :: fields)

theorem cutAtMarks_stream {isEnd : Char → Bool} (hNewline : isEnd '\n' = true)
    (hMark : isEnd '-' = false) {documents : List String}
    (h : ∀ d ∈ documents, Unmarked isEnd d.toList) :
    cutAtMarks isEnd (String.join (documents.map fun d => documentMark ++ d)) =
      "" :: documents := by
  have hText : (String.join (documents.map fun d => documentMark ++ d)).toList =
      (documents.map String.toList).flatMap fun d => mark ++ '\n' :: d := by
    rw [String.toList_join, List.flatMap_map, List.flatMap_map]
    simp [documentMark, mark]
  have hPieces := piecesOf_stream hNewline hMark (documents.map String.toList) (by simpa using h)
  rw [cutAtMarks, hText, hPieces]
  simp

end ClusterInventory.Yaml
