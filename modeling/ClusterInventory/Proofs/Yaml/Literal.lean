import ClusterInventory.Proofs.Yaml.Gap

/-! # Literal texts

A text with lines is written as a block. Its lines are indented but for the empty ones, and the
header says what becomes of the breaks at the end.
-/

namespace ClusterInventory.Yaml

/-! ## Empty lines -/

section EmptyLines

variable {m n : Nat} {rest : List Char}

theorem takeWhile_blanks (h : StartsSolid rest) (count : Nat) :
    (List.replicate count ' ' ++ rest).takeWhile (· = ' ') = List.replicate count ' ' := by
  induction count with
  | zero =>
    cases rest with
    | nil => rfl
    | cons c rest =>
      have hSpace : c ≠ ' ' := by
        rintro rfl
        exact absurd (startsSolid_cons.mp h).1 (by decide)
      simp [hSpace]
  | succ count ih => simpa [List.replicate_succ] using ih

/-- The indentation that is taken where it is known how wide it may be. -/
theorem takeWhile_take_blanks (hM : m ≤ n) (hRest : m = n ∨ StartsSolid rest) :
    ((List.replicate m ' ' ++ rest).take n).takeWhile (· = ' ') = List.replicate m ' ' := by
  rcases hRest with rfl | hSolid
  · simp
  · have hTake : StartsSolid (rest.take (n - m)) := by
      cases rest with
      | nil => simpa using startsSolid_nil
      | cons c rest =>
        cases n - m with
        | zero => exact startsSolid_nil
        | succ count => exact startsSolid_cons.mpr (startsSolid_cons.mp hSolid)
    rw [List.take_append, List.take_of_length_le (by simpa using hM), List.length_replicate,
      takeWhile_blanks hTake]

def InLine (c : Char) : Prop := isBreak c = false ∧ c ≠ '\t'

def StartsLine (cs : List Char) : Prop := ∀ c ∈ cs.head?, InLine c

theorem StartsSolid.startsLine (h : StartsSolid rest) : StartsLine rest := by
  intro c hc
  refine ⟨(h c hc).2, ?_⟩
  rintro rfl
  exact absurd (h _ hc).1 (by decide)

variable (hN : 0 < n) (widest index line : Nat) (acc : List Char)

include hN

theorem takeEmptyLines_indentation (hM : m ≤ n) (hRest : m = n ∨ StartsSolid rest)
    (hLine : StartsLine rest) (fuel : Nat) :
    takeEmptyLines (some n) widest acc ⟨List.replicate m ' ' ++ rest, index, line, 0⟩ (fuel + 1) =
      some (max widest m, acc, ⟨rest, index + m, line, m⟩) := by
  have hTab : Cursor.looksAt ⟨rest, index + m, line, m⟩ '\t' = false := by
    rw [Cursor.looksAt, beq_eq_false_iff_ne]
    exact fun hTab => (hLine '\t' hTab).2 rfl
  have hBreak : Cursor.atBreak ⟨rest, index + m, line, m⟩ = false := by
    rw [Cursor.atBreak]
    cases rest with
    | nil => rfl
    | cons c rest => simpa using (hLine c rfl).1
  have hDrop : (List.replicate m ' ' ++ rest).drop m = rest :=
    List.drop_left' (List.length_replicate)
  rw [takeEmptyLines]
  simp only [Option.getD_some, Nat.sub_zero, takeWhile_take_blanks hM hRest, Option.isNone_some,
    Bool.false_or, List.length_replicate, Cursor.skip_mk, hN, decide_true, if_true, hDrop,
    Nat.zero_add, hTab, Bool.and_false, Bool.false_eq_true, if_false, hBreak]

theorem takeEmptyLines_breaks {bs : List Char} (hBreaks : ∀ b ∈ bs, LineBreak b) (fuel : Nat) :
    takeEmptyLines (some n) widest acc ⟨bs ++ rest, index, line, 0⟩ (bs.length + fuel) =
      takeEmptyLines (some n) widest (acc ++ bs)
        ⟨rest, index + bs.length, line + bs.length, 0⟩ fuel := by
  induction bs generalizing acc index line with
  | nil => simp
  | cons b bs ih =>
    have hBreak := hBreaks b List.mem_cons_self
    obtain ⟨n, rfl⟩ : ∃ k, n = k + 1 := ⟨n - 1, by omega⟩
    have hSpace : b ≠ ' ' := by
      rintro rfl
      exact absurd hBreak.1 (by decide)
    have hTab : (some b == some '\t') = false := by
      rw [beq_eq_false_iff_ne]
      rintro hTab
      obtain rfl := Option.some.inj hTab
      exact absurd hBreak.1 (by decide)
    rw [List.length_cons, Nat.succ_add, List.cons_append, takeEmptyLines]
    simp only [Option.getD_some, Nat.sub_zero, List.take_succ_cons, List.takeWhile_cons, hSpace,
      decide_false, Bool.false_eq_true, if_false, List.length_nil, Cursor.skip_mk, List.drop_zero,
      Nat.add_zero, ite_self, Cursor.looksAt, List.head?_cons, Cursor.atBreak, Option.any_some,
      hBreak.1, if_true, Cursor.takeBreak_cons hBreak, Nat.max_zero]
    rw [hTab, Bool.and_false, if_neg Bool.false_ne_true,
      ih _ _ _ fun d hd => hBreaks d (List.mem_cons_of_mem b hd)]
    simp [Nat.add_assoc, Nat.add_comm 1]

/-- Empty lines and the indentation of the line after them. -/
theorem takeEmptyLines_given {bs : List Char} (hBreaks : ∀ b ∈ bs, LineBreak b) (hM : m ≤ n)
    (hRest : m = n ∨ StartsSolid rest) (hLine : StartsLine rest) {fuel : Nat}
    (hFuel : bs.length < fuel) :
    takeEmptyLines (some n) widest acc ⟨bs ++ (List.replicate m ' ' ++ rest), index, line, 0⟩ fuel =
      some (max widest m, acc ++ bs,
        ⟨rest, index + bs.length + m, line + bs.length, m⟩) := by
  obtain ⟨fuel, rfl⟩ : ∃ k, fuel = bs.length + (k + 1) := ⟨fuel - bs.length - 1, by omega⟩
  rw [takeEmptyLines_breaks hN _ _ _ _ hBreaks,
    takeEmptyLines_indentation hN _ _ _ _ hM hRest hLine]

omit hN in
/-- Where no indentation is known all of it is taken. -/
theorem takeEmptyLines_sought {c : Char} (hSolid : Solid c) (fuel : Nat) :
    takeEmptyLines none widest acc ⟨List.replicate n ' ' ++ c :: rest, index, line, 0⟩ (fuel + 1) =
      some (max widest n, acc, ⟨c :: rest, index + n, line, n⟩) := by
  have hTab : (some c == some '\t') = false := by
    rw [beq_eq_false_iff_ne]
    rintro hTab
    obtain rfl := Option.some.inj hTab
    exact absurd hSolid.1 (by decide)
  have hDrop : (List.replicate n ' ' ++ c :: rest).drop n = c :: rest :=
    List.drop_left' List.length_replicate
  rw [takeEmptyLines]
  simp only [Option.getD_none, Nat.sub_zero, List.take_length,
    takeWhile_blanks (startsSolid_cons.mpr hSolid), Option.isNone_none, Bool.true_or, if_true,
    List.length_replicate, Cursor.skip_mk, hDrop, Nat.zero_add, Cursor.looksAt, List.head?_cons,
    hTab, Bool.and_false, Bool.false_eq_true, if_false, Cursor.atBreak, Option.any_some, hSolid.2]

end EmptyLines

/-! ## Lines -/

/-- The lines of a text, without the breaks after the last one, and the way they are written. -/
inductive Lines (indent : Nat) (ending : List Char) : List Char → List Char → Prop where
  | last {base : List Char} : base ≠ [] → (∀ c ∈ base, InLine c) →
      Lines indent ending base (base ++ ending)
  | more {base bs later printed : List Char} {b : Char} : base ≠ [] → (∀ c ∈ base, InLine c) →
      (∀ d ∈ b :: bs, LineBreak d) → Lines indent ending later printed →
      Lines indent ending (base ++ (b :: bs ++ later))
        (base ++ (b :: bs ++ (List.replicate indent ' ' ++ printed)))

section Lines

variable {n m index line : Nat} {base rest : List Char}

theorem takeRun_line (h : ∀ c ∈ base, InLine c) {b : Char} (hBreak : isBreak b = true)
    (column : Nat) :
    Cursor.takeRun (fun _ => true) ⟨base ++ b :: rest, index, line, column⟩ =
      (base, ⟨b :: rest, index + base.length, line, column + base.length⟩) := by
  have hRun : (base ++ b :: rest).takeWhile (fun c => true && !isBreak c) = base := by
    rw [List.takeWhile_append_of_pos fun c hc => by simp [(h c hc).1]]
    simp [hBreak]
  simp only [Cursor.takeRun, hRun, Cursor.skip_mk, List.drop_left]

theorem scanLines_stop (h : m ≠ n) (text lineBreak breaks : List Char) (leading : Bool) {fuel : Nat}
    (hFuel : 0 < fuel) :
    scanLines false n text lineBreak breaks leading ⟨rest, index, line, m⟩ fuel =
      some (text, lineBreak, breaks, ⟨rest, index, line, m⟩) := by
  cases fuel with
  | zero => exact absurd hFuel (Nat.lt_irrefl 0)
  | succ fuel => rw [scanLines, if_pos (.inl h)]

/-- A line and the empty lines after it. -/
theorem scanLines_line (hN : 0 < n) (hNil : base ≠ []) (hBase : ∀ c ∈ base, InLine c) {b : Char}
    {bs : List Char} (hBreaks : ∀ d ∈ b :: bs, LineBreak d) (hM : m ≤ n)
    (hRest : m = n ∨ StartsSolid rest) (hLine : StartsLine rest)
    (text lineBreak breaks : List Char) (leading : Bool) (fuel : Nat) :
    scanLines false n text lineBreak breaks leading
        ⟨base ++ (b :: bs ++ (List.replicate m ' ' ++ rest)), index, line, n⟩ (fuel + 1) =
      scanLines false n (text ++ lineBreak ++ breaks ++ base) [b] bs (base.head?.any isBlank)
        ⟨rest, index + base.length + 1 + bs.length + m, line + 1 + bs.length, m⟩ fuel := by
  have hFirst := hBreaks b List.mem_cons_self
  have hMore := fun d hd => hBreaks d (List.mem_cons_of_mem b hd)
  have hRoom : bs.length < (bs ++ (List.replicate m ' ' ++ rest)).length + 1 := by
    rw [List.length_append]
    omega
  have hHead (tail : List Char) : (base ++ tail).head?.any isBlank = base.head?.any isBlank := by
    cases base with
    | nil => exact absurd rfl hNil
    | cons c base => rfl
  rw [scanLines, if_neg (by simp [Cursor.atEnd, hNil])]
  simp only [hHead, List.cons_append, takeRun_line hBase hFirst.1, Cursor.takeBreak_cons hFirst,
    takeEmptyLines_given hN _ _ _ _ hMore hM hRest hLine hRoom, Bool.false_and, Bool.false_eq_true,
    if_false, List.nil_append]

theorem Lines.startsLine {ending body printed : List Char} (h : Lines n ending body printed)
    (tail : List Char) : StartsLine (printed ++ tail) := by
  have hStart {base : List Char} (hNil : base ≠ []) (hBase : ∀ c ∈ base, InLine c)
      (tail : List Char) : StartsLine (base ++ tail) := by
    obtain ⟨c, base, rfl⟩ := List.exists_cons_of_ne_nil hNil
    intro d hd
    obtain rfl : c = d := Option.some.inj hd
    exact hBase c List.mem_cons_self
  cases h with
  | last hNil hBase =>
    rw [List.append_assoc]
    exact hStart hNil hBase _
  | more hNil hBase =>
    rw [List.append_assoc]
    exact hStart hNil hBase _

theorem Lines.length_le {ending body printed : List Char} (h : Lines n ending body printed) :
    body.length ≤ printed.length := by
  induction h with
  | last => simp
  | more hNil hBase hBreaks hLater ih =>
    simp only [List.length_append]
    omega

theorem Lines.exists_last {ending body printed : List Char} (h : Lines n ending body printed) :
    ∃ front c, body = front ++ [c] ∧ isBreak c = false := by
  induction h with
  | @last base hNil hBase =>
    exact ⟨base.dropLast, base.getLast hNil, (List.dropLast_concat_getLast hNil).symm,
      (hBase _ (List.getLast_mem hNil)).1⟩
  | @more base bs later printed b hNil hBase hBreaks hLater ih =>
    obtain ⟨front, c, rfl, hLast⟩ := ih
    exact ⟨base ++ (b :: bs ++ front), c, by simp, hLast⟩

/-- The lines of a text are read back, and the breaks after them are kept apart. -/
theorem scanLines_of_lines (hN : 0 < n) {b : Char} {bs body printed : List Char}
    (h : Lines n (b :: bs) body printed) (hBreaks : ∀ d ∈ b :: bs, LineBreak d) (hM : m < n)
    (hRest : StartsSolid rest) (index line : Nat) (text lineBreak breaks : List Char)
    (leading : Bool) (fuel : Nat) (hFuel : body.length < fuel) :
    ∃ index' line', line < line' ∧
      scanLines false n text lineBreak breaks leading
          ⟨printed ++ (List.replicate m ' ' ++ rest), index, line, n⟩ fuel =
        some (text ++ lineBreak ++ breaks ++ body, [b], bs, ⟨rest, index', line', m⟩) := by
  induction h generalizing index line text lineBreak breaks leading fuel with
  | @last base hNil hBase =>
    have hLength := List.length_pos_iff.mpr hNil
    obtain ⟨fuel, rfl⟩ : ∃ k, fuel = k + 1 := ⟨fuel - 1, by omega⟩
    refine ⟨index + base.length + 1 + bs.length + m, line + 1 + bs.length, by omega, ?_⟩
    rw [List.append_assoc, scanLines_line hN hNil hBase hBreaks (Nat.le_of_lt hM) (.inr hRest)
      hRest.startsLine, scanLines_stop (Nat.ne_of_lt hM) _ _ _ _ (by omega)]
  | @more base bs' later printed b' hNil hBase hBetween hLater ih =>
    have hLength := List.length_pos_iff.mpr hNil
    rw [List.length_append, List.length_append] at hFuel
    obtain ⟨fuel, rfl⟩ : ∃ k, fuel = k + 1 := ⟨fuel - 1, by omega⟩
    obtain ⟨index', line', hLine, hScan⟩ := ih (index + base.length + 1 + bs'.length + n)
      (line + 1 + bs'.length) (text ++ lineBreak ++ breaks ++ base) [b'] bs'
      (base.head?.any isBlank) fuel (by omega)
    refine ⟨index', line', by omega, ?_⟩
    rw [List.append_assoc, List.append_assoc, List.append_assoc, scanLines_line hN hNil hBase
      hBetween (Nat.le_refl n) (.inl rfl) (hLater.startsLine _), hScan]
    simp

end Lines

/-! ## Writing -/

section LiteralBody

variable {n : Nat} {base bs : List Char}

theorem literalBody_append (h : ∀ c ∈ base, isBreak c = false) (rest : List Char) :
    literalBody n false (base ++ rest) = base ++ literalBody n false rest := by
  induction base with
  | nil => rfl
  | cons c base ih =>
    rw [List.cons_append, literalBody, ih fun d hd => h d (List.mem_cons_of_mem c hd)]
    simp [h c List.mem_cons_self]

theorem literalBody_breaks (h : ∀ b ∈ bs, isBreak b = true) (rest : List Char) :
    literalBody n true (bs ++ rest) = bs ++ literalBody n true rest := by
  induction bs with
  | nil => rfl
  | cons b bs ih =>
    rw [List.cons_append, literalBody, if_pos (h b List.mem_cons_self),
      ih fun d hd => h d (List.mem_cons_of_mem b hd)]
    rfl

theorem literalBody_indented {c : Char} (h : isBreak c = false) (rest : List Char) :
    literalBody n true (c :: rest) =
      List.replicate n ' ' ++ literalBody n false (c :: rest) := by
  simp [literalBody, h]

theorem mem_literalBody {c : Char} {afterBreak : Bool} {cs : List Char}
    (h : c ∈ literalBody n afterBreak cs) : c = ' ' ∨ c ∈ cs := by
  induction cs generalizing afterBreak with
  | nil => cases h
  | cons d cs ih =>
    rw [literalBody] at h
    grind

theorem literalBody_run {b : Char} (h : ∀ d ∈ b :: bs, isBreak d = true) (rest : List Char) :
    literalBody n false (b :: bs ++ rest) = b :: bs ++ literalBody n true rest := by
  rw [List.cons_append, literalBody, if_pos (h b List.mem_cons_self),
    literalBody_breaks fun d hd => h d (List.mem_cons_of_mem b hd)]
  rfl

/-- A text is a line and the breaks after it, and where there are none nothing else. -/
theorem exists_line {cs : List Char} (hNil : cs ≠ []) (hPrintable : ∀ c ∈ cs, isPrintable c = true)
    (hFirst : ∀ c ∈ cs.head?, isBreak c = false) :
    ∃ base bs later, cs = base ++ (bs ++ later) ∧ base ≠ [] ∧ (∀ c ∈ base, InLine c) ∧
      (∀ b ∈ bs, LineBreak b) ∧ (∀ c ∈ later.head?, isBreak c = false) ∧
      (bs = [] → later = []) := by
  obtain ⟨base, rest, rfl, hBase, hRest⟩ := exists_span (!isBreak ·) cs
  obtain ⟨bs, later, rfl, hBreaks, hLater⟩ := exists_span isBreak rest
  refine ⟨base, bs, later, rfl, ?_, fun c hc => ⟨by simpa using hBase c hc, ?_⟩,
    fun b hb => ⟨hBreaks b hb, hPrintable b (by simp [hb])⟩, hLater, ?_⟩
  · rintro rfl
    obtain ⟨c, tail, hText⟩ := List.exists_cons_of_ne_nil hNil
    rw [List.nil_append] at hText
    rw [hText] at hRest
    rw [List.nil_append, hText] at hFirst
    simpa [hFirst c rfl] using hRest c rfl
  · rintro rfl
    exact absurd (hPrintable _ (List.mem_append_left _ hc)) (by decide)
  · rintro rfl
    cases later with
    | nil => rfl
    | cons c later => simpa [hLater c rfl] using hRest c rfl

def lineEnd (trailing : List Char) : List Char := if trailing = [] then ['\n'] else trailing

theorem exists_lines (cs : List Char) (hNil : cs ≠ []) (hPrintable : ∀ c ∈ cs, isPrintable c = true)
    (hFirst : ∀ c ∈ cs.head?, isBreak c = false) :
    ∃ body trailing printed, cs = body ++ trailing ∧ (∀ b ∈ trailing, LineBreak b) ∧
      Lines n (lineEnd trailing) body printed ∧
      literalBody n false cs ++ (if trailing = [] then ['\n'] else []) = printed := by
  obtain ⟨base, bs, later, rfl, hBaseNil, hInLine, hBreaks, hLater, hEnd⟩ :=
    exists_line hNil hPrintable hFirst
  rw [literalBody_append fun c hc => (hInLine c hc).1]
  cases bs with
  | nil =>
    rw [hEnd rfl]
    exact ⟨base, [], base ++ ['\n'], rfl, nofun, .last hBaseNil hInLine, by simp [literalBody]⟩
  | cons b bs =>
    rw [literalBody_run fun b hb => (hBreaks b hb).1]
    cases later with
    | nil =>
      exact ⟨base, b :: bs, base ++ b :: bs, by simp, hBreaks, .last hBaseNil hInLine,
        by simp [literalBody]⟩
    | cons c later =>
      obtain ⟨body, trailing, printed, hText, hTrailing, hLines, hPrinted⟩ :=
        exists_lines (c :: later) (by simp) (fun d hd => hPrintable d (by simp [hd])) hLater
      refine ⟨base ++ (b :: bs ++ body), trailing, _, by rw [hText]; simp, hTrailing,
        .more hBaseNil hInLine hBreaks hLines, ?_⟩
      rw [literalBody_indented (hLater c rfl), ← hPrinted]
      simp
termination_by cs.length
decreasing_by
  subst_vars
  simp
  omega

end LiteralBody

/-! ## Headers -/

def Chomping.mark : Chomping → List Char
  | .strip => ['-']
  | .clip => []
  | .keep => ['+']

def Chomping.ofTrailing : List Char → Chomping
  | [] => .strip
  | [_] => .clip
  | _ => .keep

def hintText (hinted : Bool) : List Char := if hinted then ['2'] else []

theorem scanHeader_mark (hinted : Bool) (chomping : Chomping) (rest : List Char)
    (index line column : Nat) : ∃ index' column',
      scanHeader ⟨hintText hinted ++ (chomping.mark ++ '\n' :: rest), index, line, column⟩ =
        some (chomping, if hinted then some 2 else none,
          ⟨'\n' :: rest, index', line, column'⟩) := by
  cases hinted <;> cases chomping <;> exact ⟨_, _, rfl⟩

theorem skipToBreak_newline (rest : List Char) (index line column : Nat) :
    skipToBreak ⟨'\n' :: rest, index, line, column⟩ = some ⟨rest, index + 1, line + 1, 0⟩ :=
  rfl

theorem chomping_cases (cs : List Char) :
    chomping cs = "-" ∨ chomping cs = "+" ∨ chomping cs = "" := by
  unfold chomping
  grind

theorem chomping_two {cs : List Char} {c d : Char} {before : List Char}
    (h : cs.reverse = c :: d :: before) :
    chomping cs = if !isBreak c then "-" else if isBreak d then "+" else "" := by
  rw [chomping, h]

theorem chomping_breaks {cs : List Char} (hNil : cs ≠ []) (h : ∀ b ∈ cs, isBreak b = true) :
    chomping cs = "+" := by
  have hReverse : ∀ b ∈ cs.reverse, isBreak b = true := fun b hb => h b (List.mem_reverse.mp hb)
  match hCs : cs.reverse with
  | [] => exact absurd (List.reverse_eq_nil_iff.mp hCs) hNil
  | [c] =>
    rw [hCs] at hReverse
    simp [chomping, hCs, hReverse c List.mem_cons_self]
  | c :: d :: before =>
    rw [hCs] at hReverse
    simp [chomping_two hCs, hReverse c List.mem_cons_self, hReverse d (by simp)]

theorem chomping_trailing (front : List Char) {trailing : List Char} {c : Char}
    (hLast : isBreak c = false) (h : ∀ b ∈ trailing, isBreak b = true) :
    (chomping (front ++ c :: trailing)).toList = (Chomping.ofTrailing trailing).mark := by
  match trailing with
  | [] =>
    cases hFront : front.reverse with
    | nil => simp [chomping, hFront, hLast, Chomping.ofTrailing, Chomping.mark]
    | cons d before =>
      have hReverse : (front ++ [c]).reverse = c :: d :: before := by simp [hFront]
      simp [chomping_two hReverse, hLast, Chomping.ofTrailing, Chomping.mark]
  | [b] =>
    have hReverse : (front ++ [c, b]).reverse = b :: c :: front.reverse := by simp
    simp [chomping_two hReverse, hLast, h b List.mem_cons_self, Chomping.ofTrailing,
      Chomping.mark]
  | b :: b' :: later =>
    obtain ⟨d, e, before, hMore⟩ : ∃ d e before, (b :: b' :: later).reverse = d :: e :: before := by
      match hLater : (b :: b' :: later).reverse with
      | d :: e :: before => exact ⟨d, e, before, rfl⟩
      | [] => simp at hLater
      | [d] => simpa using congrArg List.length hLater
    have hBreaks : ∀ x ∈ d :: e :: before, isBreak x = true := by
      rw [← hMore]
      exact fun x hx => h x (List.mem_reverse.mp hx)
    have hReverse : (front ++ c :: b :: b' :: later).reverse =
        d :: e :: (before ++ c :: front.reverse) := by
      rw [List.reverse_append, List.reverse_cons, hMore]
      simp
    simp [chomping_two hReverse, hBreaks d List.mem_cons_self, hBreaks e (by simp),
      Chomping.ofTrailing, Chomping.mark]

/-! ## Blocks -/

def isHinted (cs : List Char) : Bool := cs.head?.any fun c => c = ' ' || isBreak c

def literalText (n : Nat) (cs : List Char) : List Char :=
  hintText (isHinted cs) ++ ((chomping cs).toList ++ '\n' ::
    (literalBody n true cs ++ if cs.getLast?.any isBreak then [] else ['\n']))

theorem toList_literal (n : Nat) (s : String) :
    (literal n s).toList = '|' :: literalText n s.toList := by
  unfold literal literalText hintText isHinted
  simp only [String.toList_append, String.toList_ofList]
  split <;> split <;> simp_all

section Block

variable {k m : Nat} {rest : List Char}

theorem scanBlock_breaks {cs : List Char} (hNil : cs ≠ []) (hBreaks : ∀ b ∈ cs, LineBreak b)
    (hM : m ≤ k) (hRest : StartsSolid rest) (index line column : Nat) :
    ∃ index' line', line < line' ∧
      scanBlock false k ⟨literalText (k + 2) cs ++ (List.replicate m ' ' ++ rest),
        index, line, column⟩ = some (cs, ⟨rest, index', line', m⟩) := by
  have hAll : ∀ b ∈ cs, isBreak b = true := fun b hb => (hBreaks b hb).1
  have hHinted : isHinted cs = true := by
    obtain ⟨c, cs, rfl⟩ := List.exists_cons_of_ne_nil hNil
    simp [isHinted, hAll c List.mem_cons_self]
  have hLast : cs.getLast?.any isBreak = true := by
    rw [List.getLast?_eq_some_getLast hNil]
    exact hAll _ (List.getLast_mem hNil)
  have hBody : literalBody (k + 2) true cs = cs := by
    simpa [literalBody] using literalBody_breaks (n := k + 2) hAll []
  have hText : literalText (k + 2) cs = hintText true ++ (Chomping.keep.mark ++ '\n' :: cs) := by
    simp [literalText, hHinted, hLast, hBody, chomping_breaks hNil hAll, Chomping.mark]
  obtain ⟨index', column', hHeader⟩ := scanHeader_mark true .keep
    (cs ++ (List.replicate m ' ' ++ rest)) index line column
  have hRoom : cs.length < (cs ++ (List.replicate m ' ' ++ rest)).length + 2 := by
    rw [List.length_append]
    omega
  refine ⟨index' + 1 + cs.length + m, line + 1 + cs.length, by omega, ?_⟩
  have hIndent : (max (k : Int) 0).toNat + 2 = k + 2 := by omega
  rw [hText, List.append_assoc, List.append_assoc, List.cons_append, scanBlock, hHeader]
  simp only [Option.bind_eq_bind, Option.bind_some, skipToBreak_newline, if_true, Option.map_some,
    hIndent, takeEmptyLines_given (Nat.succ_pos (k + 1)) 0 (index' + 1) (line + 1) [] hBreaks
      (Nat.le_trans hM (Nat.le_add_right k 2)) (.inr hRest) hRest.startsLine hRoom,
    Option.getD_some, scanLines_stop (Nat.ne_of_lt (Nat.lt_succ_of_le (Nat.le_succ_of_le hM))) _ _ _
      _ (Nat.succ_pos _), List.nil_append]
  rfl

/-- What the mark in the header keeps of the breaks at the end is all of them. -/
theorem exists_lineEnd {trailing : List Char} (h : ∀ b ∈ trailing, LineBreak b) :
    ∃ b bs, lineEnd trailing = b :: bs ∧ (∀ d ∈ b :: bs, LineBreak d) ∧
      (match Chomping.ofTrailing trailing with
        | .strip => []
        | .clip => [b]
        | .keep => [b] ++ bs) = trailing := by
  match trailing with
  | [] => exact ⟨'\n', [], rfl, by simpa using lineBreak_newline, rfl⟩
  | [b] => exact ⟨b, [], rfl, h, rfl⟩
  | b :: d :: bs => exact ⟨b, d :: bs, rfl, h, rfl⟩

theorem getLast?_any_trailing {front body trailing : List Char} {c : Char}
    (hBody : body = front ++ [c]) (hLast : isBreak c = false)
    (h : ∀ b ∈ trailing, isBreak b = true) (lead : List Char) :
    (lead ++ (body ++ trailing)).getLast?.any isBreak = decide (trailing ≠ []) := by
  subst hBody
  by_cases hNil : trailing = []
  · subst hNil
    simp [← List.append_assoc, hLast]
  · rw [← List.append_assoc, List.getLast?_append, List.getLast?_eq_some_getLast hNil]
    simpa [hNil] using h _ (List.getLast_mem hNil)

/-- The block of a text with lines, whose last lines are the trailing breaks. -/
theorem literalText_lines {n : Nat} {lead core body trailing printed : List Char} {c : Char}
    (hLead : ∀ b ∈ lead, isBreak b = true) (hFirst : isBreak c = false)
    (hCore : c :: core = body ++ trailing) (hTrailing : ∀ b ∈ trailing, isBreak b = true)
    (hLast : ∃ front d, body = front ++ [d] ∧ isBreak d = false)
    (hPrinted : literalBody n false (c :: core) ++ (if trailing = [] then ['\n'] else []) =
      printed) :
    literalText n (lead ++ c :: core) =
      hintText (isHinted (lead ++ c :: core)) ++ ((Chomping.ofTrailing trailing).mark ++ '\n' ::
        (lead ++ (List.replicate n ' ' ++ printed))) := by
  obtain ⟨front, d, hBody, hSolid⟩ := hLast
  have hMark : (chomping (lead ++ c :: core)).toList = (Chomping.ofTrailing trailing).mark := by
    rw [hCore, hBody, List.append_assoc, List.singleton_append, ← List.append_assoc]
    exact chomping_trailing (lead ++ front) hSolid hTrailing
  have hTail : (if (lead ++ c :: core).getLast?.any isBreak then [] else ['\n']) =
      if trailing = [] then ['\n'] else [] := by
    rw [hCore, getLast?_any_trailing hBody hSolid hTrailing]
    by_cases hNil : trailing = [] <;> simp [hNil]
  rw [literalText, hMark, hTail, literalBody_breaks hLead, literalBody_indented hFirst, ← hPrinted]
  simp only [List.append_assoc]

/-- The start of a block, whether or not its indentation is given. -/
theorem takeEmptyLines_start {n : Nat} (hN : 0 < n) {lead : List Char} (rest tail : List Char)
    {c : Char} (hLead : ∀ b ∈ lead, LineBreak b) (hLine : InLine c) (index line : Nat)
    {fuel : Nat} (hFuel : lead.length < fuel) :
    ∃ widest index' line', line ≤ line' ∧
      takeEmptyLines (if isHinted (lead ++ c :: rest) then some n else none) 0 []
          ⟨lead ++ (List.replicate n ' ' ++ c :: tail), index, line, 0⟩ fuel =
        some (widest, lead, ⟨c :: tail, index', line', n⟩) ∧
      ∀ least ≤ n, (if isHinted (lead ++ c :: rest) then some n else none).getD
        (max widest least) = n := by
  cases hHint : isHinted (lead ++ c :: rest) with
  | true =>
    have hStart : StartsLine (c :: tail) := by
      intro d hd
      obtain rfl : c = d := Option.some.inj hd
      exact hLine
    refine ⟨max 0 n, index + lead.length + n, line + lead.length, by omega, ?_, fun _ _ => rfl⟩
    rw [if_pos rfl, takeEmptyLines_given hN _ _ _ _ hLead (Nat.le_refl n) (.inl rfl) hStart hFuel,
      List.nil_append]
  | false =>
    cases lead with
    | cons b lead =>
      have hBreak := (hLead b List.mem_cons_self).1
      simp [isHinted, hBreak] at hHint
    | nil =>
      have hSpace : c ≠ ' ' := by
        rintro rfl
        simp [isHinted] at hHint
      have hSolid : Solid c := by
        refine ⟨?_, hLine.1⟩
        simp [isBlank, hSpace, hLine.2]
      obtain ⟨fuel, rfl⟩ : ∃ k, fuel = k + 1 := ⟨fuel - 1, by simp at hFuel; omega⟩
      refine ⟨n, index + n, line, Nat.le_refl line, ?_, fun least hLeast => Nat.max_eq_left hLeast⟩
      simpa using takeEmptyLines_sought 0 index line [] hSolid fuel

theorem scanBlock_lines {lead core : List Char} {c : Char} (hLead : ∀ b ∈ lead, LineBreak b)
    (hFirst : isBreak c = false) (hPrintable : ∀ d ∈ c :: core, isPrintable d = true)
    (hM : m ≤ k) (hRest : StartsSolid rest) (index line column : Nat) :
    ∃ index' line', line < line' ∧
      scanBlock false k ⟨literalText (k + 2) (lead ++ c :: core) ++ (List.replicate m ' ' ++ rest),
        index, line, column⟩ = some (lead ++ c :: core, ⟨rest, index', line', m⟩) := by
  obtain ⟨body, trailing, printed, hCore, hTrailing, hLines, hPrinted⟩ :=
    exists_lines (n := k + 2) (c :: core) (List.cons_ne_nil c core) hPrintable
      (by simpa using hFirst)
  obtain ⟨b, bs, hEnd, hBreaks, hEnding⟩ := exists_lineEnd hTrailing
  have hText := literalText_lines (fun b hb => (hLead b hb).1) hFirst hCore
    (fun b hb => (hTrailing b hb).1) hLines.exists_last hPrinted
  obtain ⟨tail, hTail⟩ : ∃ tail, printed = c :: tail := by
    rw [literalBody, hFirst] at hPrinted
    exact ⟨_, hPrinted.symm⟩
  have hInLine : InLine c :=
    hLines.startsLine [] c (by simp [hTail])
  obtain ⟨headIndex, headColumn, hHeader⟩ := scanHeader_mark (isHinted (lead ++ c :: core))
    (.ofTrailing trailing)
    (lead ++ (List.replicate (k + 2) ' ' ++ (printed ++ (List.replicate m ' ' ++ rest))))
    index line column
  have hRoom : lead.length + body.length < (lead ++ (List.replicate (k + 2) ' ' ++
      (printed ++ (List.replicate m ' ' ++ rest)))).length + 2 := by
    have := hLines.length_le
    simp only [List.length_append]
    omega
  obtain ⟨widest, bodyIndex, bodyLine, hBodyLine, hTake, hWidest⟩ :=
    takeEmptyLines_start (Nat.succ_pos (k + 1)) core (tail ++ (List.replicate m ' ' ++ rest)) hLead
      hInLine (headIndex + 1) (line + 1) (Nat.lt_of_le_of_lt (Nat.le_add_right _ _) hRoom)
  rw [← List.cons_append, ← hTail] at hTake
  obtain ⟨index', line', hLine, hScan⟩ := scanLines_of_lines (Nat.succ_pos (k + 1)) (hEnd ▸ hLines)
    hBreaks (Nat.lt_succ_of_le (Nat.le_succ_of_le hM)) hRest bodyIndex bodyLine [] [] lead false _
    (Nat.lt_of_le_of_lt (Nat.le_add_left _ _) hRoom)
  have hGiven : (if isHinted (lead ++ c :: core) = true then some 2 else none).map
      (fun n => (max (k : Int) 0).toNat + n) =
        if isHinted (lead ++ c :: core) = true then some (k + 2) else none := by
    have hOuter : (max (k : Int) 0).toNat = k := by omega
    split
    · rw [Option.map_some, hOuter]
    · rfl
  refine ⟨index', line', by omega, ?_⟩
  rw [hText]
  simp only [List.append_assoc, List.cons_append, scanBlock, hHeader, Option.bind_eq_bind,
    Option.bind_some, skipToBreak_newline, hGiven, hTake,
    hWidest (max ((k : Int) + 1) 1).toNat (by omega), hScan]
  rw [hCore]
  exact congrArg (fun ending => some (lead ++ (body ++ ending), Cursor.mk rest index' line' m))
    hEnding

/-- A block is read back to the end of its lines. -/
theorem scanBlock_literal {cs : List Char} (hNil : cs ≠ [])
    (hPrintable : ∀ c ∈ cs, isPrintable c = true) (hM : m ≤ k) (hRest : StartsSolid rest)
    (index line column : Nat) :
    ∃ index' line', line < line' ∧
      scanBlock false k ⟨literalText (k + 2) cs ++ (List.replicate m ' ' ++ rest),
        index, line, column⟩ = some (cs, ⟨rest, index', line', m⟩) := by
  obtain ⟨lead, core, rfl, hLead, hCore⟩ := exists_span isBreak cs
  have hBreaks : ∀ b ∈ lead, LineBreak b := fun b hb =>
    ⟨hLead b hb, hPrintable b (List.mem_append_left core hb)⟩
  cases core with
  | nil =>
    rw [List.append_nil] at hNil ⊢
    exact scanBlock_breaks hNil hBreaks hM hRest index line column
  | cons c core =>
    exact scanBlock_lines hBreaks (hCore c rfl) (fun d hd => hPrintable d (by simp [hd])) hM hRest
      index line column

end Block

end ClusterInventory.Yaml
