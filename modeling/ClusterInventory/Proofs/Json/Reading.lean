import ClusterInventory.Json.Printer
import ClusterInventory.Json.Reader
import Mathlib.Data.List.DropRight

/-! # Reading what was printed

A printed value is read back wherever it stands. Numbers are read on their own: where the text of
each number of a value is read as that number, the printed value is read as that value, as long as
it does not nest too deep.
-/

namespace ClusterInventory.Json

/-! ## Blanks -/

theorem skipBlanks_append {gap : List Char} (h : ∀ c ∈ gap, isBlank c = true) (rest : List Char) :
    skipBlanks (gap ++ rest) = skipBlanks rest :=
  List.dropWhile_append_of_pos h

theorem skipBlanks_cons {c : Char} (h : isBlank c = false) (rest : List Char) :
    skipBlanks (c :: rest) = c :: rest := by
  simp [skipBlanks, h]

theorem skipBlanks_skipBlanks (cs : List Char) : skipBlanks (skipBlanks cs) = skipBlanks cs :=
  List.dropWhile_idempotent isBlank cs

theorem skipBlanks_append_of_cons {cs later : List Char} {c : Char}
    (h : skipBlanks cs = c :: later) (rest : List Char) :
    skipBlanks (cs ++ rest) = c :: (later ++ rest) := by
  induction cs with
  | nil => cases h
  | cons d cs ih =>
    simp only [skipBlanks] at h ih ⊢
    cases hBlank : isBlank d <;> simp_all

theorem readValue_gap {gap : List Char} (h : ∀ c ∈ gap, isBlank c = true) (depth fuel : Nat)
    (rest : List Char) : readValue depth fuel (gap ++ rest) = readValue depth fuel rest := by
  cases fuel with
  | zero => simp only [readValue]
  | succ fuel => simp only [readValue, skipBlanks_append h]

theorem readItems_gap {gap : List Char} (h : ∀ c ∈ gap, isBlank c = true) (depth fuel : Nat)
    (acc : List Json) (rest : List Char) :
    readItems depth fuel acc (gap ++ rest) = readItems depth fuel acc rest := by
  cases fuel with
  | zero => simp only [readItems]
  | succ fuel => simp only [readItems, readValue_gap h]

theorem readFields_gap {gap : List Char} (h : ∀ c ∈ gap, isBlank c = true) (depth fuel : Nat)
    (acc : List (String × Json)) (rest : List Char) :
    readFields depth fuel acc (gap ++ rest) = readFields depth fuel acc rest := by
  cases fuel with
  | zero => simp only [readFields]
  | succ fuel => simp only [readFields, skipBlanks_append h]

/-! ## Strings -/

theorem hex4_hexDigit : ∀ n < 32,
    hex4 '0' '0' (hexDigit (n / 16)) (hexDigit (n % 16)) = some n := by
  decide +kernel

theorem readString_escapeChar (c : Char) (acc rest : List Char) :
    readString acc (escapeChar c ++ rest) = readString (c :: acc) rest := by
  unfold escapeChar
  iterate 5 (split; · subst c; rfl)
  iterate 2 (split; · rename_i hCode; rw [← Char.ofNat_toNat c, hCode]; rfl)
  split
  · rename_i hControl
    have hLow : ¬(0xD800 ≤ c.toNat ∧ c.toNat < 0xDC00) := by omega
    have hHigh : ¬(0xDC00 ≤ c.toNat ∧ c.toNat < 0xE000) := by omega
    simp only [List.cons_append, List.nil_append, readString, hex4_hexDigit c.toNat hControl,
      if_neg hLow, if_neg hHigh, Char.ofNat_toNat]
  · rename_i hQuote hMark _ _ _ _ _ hControl
    rw [List.singleton_append, readString, if_neg hControl]
    · exact hQuote
    · exact fun _ _ _ _ _ hEqual _ => hMark hEqual
    · exact fun _ _ hEqual _ => hMark hEqual

theorem readString_quoted (s acc rest : List Char) :
    readString acc (s.flatMap escapeChar ++ '"' :: rest) =
      some (String.ofList (acc.reverse ++ s), rest) := by
  induction s generalizing acc with
  | nil => simp [readString]
  | cons c s ih =>
    rw [List.flatMap_cons, List.append_assoc, readString_escapeChar, ih]
    simp

/-! ## Numbers -/

def EndsNumber (rest : List Char) : Prop :=
  ∀ c ∈ rest.head?, c.isDigit = false ∧ c ≠ '.' ∧ c ≠ 'e' ∧ c ≠ 'E'

def exponentSign : List Char → Bool × List Char
  | '+' :: r => (false, r)
  | '-' :: r => (true, r)
  | r => (false, r)

def exponentValue (negative : Bool) (significand : Nat) (start : Int) (negativeExponent : Bool)
    (digits : List Char) : Option Json :=
  if digits.isEmpty then none
  else
    let value := digits.foldl (fun n c => n * 10 + digitValue c) 0
    if maxExponent < value then
      if significand ≠ 0 ∧ negativeExponent = false then none
      else some (double (Double.ofMagnitude negative 0))
    else ofSignificand negative significand
      (if negativeExponent then start - value else start + value)

theorem readExponent_eq (negative : Bool) (significand : Nat) (start : Int) (cs : List Char) :
    readExponent negative significand start cs =
      (exponentValue negative significand start (exponentSign cs).1
        ((exponentSign cs).2.takeWhile Char.isDigit)).map
        (·, (exponentSign cs).2.dropWhile Char.isDigit) := by
  have hRead (negativeExponent : Bool) (digits after : List Char) :
      (if digits.isEmpty then none
        else
          let value := digits.foldl (fun n c => n * 10 + digitValue c) 0
          if maxExponent < value then
            if significand ≠ 0 ∧ negativeExponent = false then none
            else some (double (Double.ofMagnitude negative 0), after)
          else
            let exponent := if negativeExponent then start - value else start + value
            (ofSignificand negative significand exponent).map (·, after)) =
        (exponentValue negative significand start negativeExponent digits).map (·, after) := by
    dsimp only [exponentValue]
    split
    · rfl
    split
    · split <;> rfl
    · rfl
  exact hRead _ _ _

theorem finish_of_head {cs : List Char} (h : ∀ c ∈ cs.head?, c ≠ 'e' ∧ c ≠ 'E') (negative : Bool)
    (significand : Nat) (exponent : Int) : finish negative significand exponent cs =
      (ofSignificand negative significand exponent).map (·, cs) := by
  unfold finish
  split
  · exact absurd rfl (h 'e' rfl).1
  · exact absurd rfl (h 'E' rfl).2
  · rfl

def wholeNumber (negative : Bool) (s : Significand) : Option Json :=
  if s.dropped ≠ 0 then ofSignificand negative s.value s.dropped
  else if negative = false then some (int s.value)
  else if s.value = 0 ∨ Nat.pow 2 63 < s.value then ofSignificand true s.value 0
  else some (int (-s.value))

def readTail (negative : Bool) (s : Significand) : List Char → Read Json
  | '.' :: r => readFraction negative s r
  | 'e' :: r => readExponent negative s.value s.dropped r
  | 'E' :: r => readExponent negative s.value s.dropped r
  | r => (wholeNumber negative s).map (·, r)

theorem readTail_of_head {cs : List Char} (h : ∀ c ∈ cs.head?, c ≠ '.' ∧ c ≠ 'e' ∧ c ≠ 'E')
    (negative : Bool) (s : Significand) :
    readTail negative s cs = (wholeNumber negative s).map (·, cs) := by
  unfold readTail
  split
  · exact absurd rfl (h '.' rfl).1
  · exact absurd rfl (h 'e' rfl).2.1
  · exact absurd rfl (h 'E' rfl).2.2
  · rfl

/-- Whether a number may have these digits in front; a zero stands alone. -/
def startsNumber : List Char → Bool
  | [] => false
  | '0' :: _ :: _ => false
  | _ => true

theorem readNumber_eq (negative : Bool) (cs : List Char) : readNumber negative cs =
    if startsNumber (cs.takeWhile Char.isDigit) then
      readTail negative ((cs.takeWhile Char.isDigit).foldl Significand.push ⟨0, 0, 0⟩)
        (cs.dropWhile Char.isDigit)
    else none := by
  dsimp only [readNumber]
  generalize cs.takeWhile Char.isDigit = digits
  generalize cs.dropWhile Char.isDigit = later
  split
  · rfl
  · rfl
  · rename_i hNil hZero
    have hStart : startsNumber digits = true := by
      unfold startsNumber
      split
      · exact absurd rfl hNil
      · exact absurd rfl (hZero _ _)
      · rfl
    rw [if_pos hStart]
    split
    · rfl
    · rfl
    · rfl
    · rename_i hPoint hLower hUpper
      rw [readTail_of_head]
      · unfold wholeNumber
        split
        · rfl
        split
        · rfl
        split <;> rfl
      · intro c hc
        cases later with
        | nil => cases hc
        | cons d r =>
          cases hc
          exact ⟨fun hc => hPoint r (hc ▸ rfl), fun hc => hLower r (hc ▸ rfl),
            fun hc => hUpper r (hc ▸ rfl)⟩

section Numbers

variable {rest : List Char} (hEnds : EndsNumber rest) {negative : Bool} {cs after : List Char}
  {v : Json}

theorem map_append {value : Option Json} (h : value.map (·, cs) = some (v, after)) :
    value.map (·, cs ++ rest) = some (v, after ++ rest) := by
  obtain ⟨w, rfl, hPair⟩ := Option.map_eq_some_iff.mp h
  cases hPair
  rfl

include hEnds

theorem digits_append (cs : List Char) :
    (cs ++ rest).takeWhile Char.isDigit = cs.takeWhile Char.isDigit ∧
      (cs ++ rest).dropWhile Char.isDigit = cs.dropWhile Char.isDigit ++ rest := by
  induction cs with
  | nil =>
    cases rest with
    | nil => exact ⟨rfl, rfl⟩
    | cons c rest => simp [(hEnds c rfl).1]
  | cons c cs ih => by_cases hDigit : c.isDigit = true <;> simp [hDigit, ih]

theorem readExponent_append {significand : Nat} {start : Int}
    (h : readExponent negative significand start cs = some (v, after)) :
    readExponent negative significand start (cs ++ rest) = some (v, after ++ rest) := by
  rw [readExponent_eq] at h ⊢
  have hSign : exponentSign (cs ++ rest) = ((exponentSign cs).1, (exponentSign cs).2 ++ rest) := by
    cases cs with
    | nil => simp [exponentSign, exponentValue] at h
    | cons c cs =>
      by_cases hPlus : c = '+'
      · subst c
        rfl
      · by_cases hMinus : c = '-'
        · subst c
          rfl
        · simp [exponentSign, hPlus, hMinus]
  simp only [hSign, digits_append hEnds]
  exact map_append h

theorem finish_append {significand : Nat} {exponent : Int}
    (h : finish negative significand exponent cs = some (v, after)) :
    finish negative significand exponent (cs ++ rest) = some (v, after ++ rest) := by
  by_cases hHead : ∀ c ∈ cs.head?, c ≠ 'e' ∧ c ≠ 'E'
  · rw [finish_of_head hHead] at h
    rw [finish_of_head]
    · exact map_append h
    · cases cs with
      | nil => exact fun c hc => (hEnds c hc).2.2
      | cons c cs => exact hHead
  · cases cs with
    | nil => simp at hHead
    | cons c cs =>
      obtain rfl | rfl : c = 'e' ∨ c = 'E' := by simpa [Decidable.or_iff_not_imp_left] using hHead
      · exact readExponent_append hEnds h
      · exact readExponent_append hEnds h

theorem readFraction_append {s : Significand}
    (h : readFraction negative s cs = some (v, after)) :
    readFraction negative s (cs ++ rest) = some (v, after ++ rest) := by
  unfold readFraction at h ⊢
  simp only [digits_append hEnds] at h ⊢
  split at h
  · cases h
  · rename_i hSome
    rw [if_neg hSome]
    exact finish_append hEnds h

theorem readTail_append {s : Significand} (h : readTail negative s cs = some (v, after)) :
    readTail negative s (cs ++ rest) = some (v, after ++ rest) := by
  by_cases hHead : ∀ c ∈ cs.head?, c ≠ '.' ∧ c ≠ 'e' ∧ c ≠ 'E'
  · rw [readTail_of_head hHead] at h
    rw [readTail_of_head]
    · exact map_append h
    · cases cs with
      | nil => exact fun c hc => (hEnds c hc).2
      | cons c cs => exact hHead
  · cases cs with
    | nil => simp at hHead
    | cons c cs =>
      obtain rfl | rfl | rfl : c = '.' ∨ c = 'e' ∨ c = 'E' := by
        simpa [Decidable.or_iff_not_imp_left] using hHead
      · exact readFraction_append hEnds h
      · exact readExponent_append hEnds h
      · exact readExponent_append hEnds h

theorem readNumber_append (h : readNumber negative cs = some (v, after)) :
    readNumber negative (cs ++ rest) = some (v, after ++ rest) := by
  rw [readNumber_eq] at h ⊢
  simp only [digits_append hEnds]
  split at h
  · rename_i hStart
    rw [if_pos hStart]
    exact readTail_append hEnds h
  · cases h

end Numbers

/-! ## Values -/

def isNumber : Json → Bool
  | int _ => true
  | double _ => true
  | _ => false

/-- What is read as a number is a number before any other text. -/
theorem exists_readNumber {depth fuel : Nat} {cs after : List Char} {v : Json}
    (h : readValue depth (fuel + 1) cs = some (v, after)) (hNumber : isNumber v = true) :
    ∃ negative digits, readNumber negative digits = some (v, after) ∧
      ∀ depth fuel rest,
        readValue depth (fuel + 1) (cs ++ rest) = readNumber negative (digits ++ rest) := by
  have hKeyword {word : String} {w : Json} {cs : List Char} (hw : isNumber w = false)
      (hRead : keyword word w cs = some (v, after)) : False := by
    unfold keyword at hRead
    split at hRead
    · cases hRead
      simp [hNumber] at hw
    · cases hRead
  have hMapped {α : Type} {f : α → Json} {read : Read α} (hf : ∀ a, isNumber (f a) = false)
      (hRead : read.map (fun (a, r) => (f a, r)) = some (v, after)) : False := by
    obtain ⟨⟨a, r⟩, -, hPair⟩ := Option.map_eq_some_iff.mp hRead
    cases hPair
    simp [hf a] at hNumber
  rw [readValue] at h
  split at h
  · cases h
  · exact (hKeyword rfl h).elim
  · exact (hKeyword rfl h).elim
  · exact (hKeyword rfl h).elim
  · exact (hMapped (fun _ => rfl) h).elim
  · rename_i r hFound
    refine ⟨true, r, h, fun depth fuel rest => ?_⟩
    rw [readValue, skipBlanks_append_of_cons hFound]
    rfl
  · split at h
    · cases h
    split at h
    · cases h
      cases hNumber
    · exact (hMapped (fun _ => rfl) h).elim
  · split at h
    · cases h
    split at h
    · cases h
      cases hNumber
    · exact (hMapped (fun _ => rfl) h).elim
  · rename_i c r h1 h2 h3 h4 h5 h6 h7 hFound
    refine ⟨false, c :: r, h, fun depth fuel rest => ?_⟩
    rw [readValue, skipBlanks_append_of_cons hFound]
    simp_all

/-! ## Integers -/

theorem head?_toDigits {n : Nat} (h : 0 < n) : (Nat.toDigits 10 n).head? ≠ some '0' := by
  induction n using Nat.strongRecOn with
  | ind n ih =>
    by_cases hSmall : n < 10
    · rw [Nat.toDigits_of_lt_base hSmall]
      simp
      omega
    · rw [Nat.toDigits_of_base_le (by decide) (Nat.le_of_not_lt hSmall),
        List.head?_append_of_ne_nil _ Nat.toDigits_ne_nil]
      exact ih (n / 10) (by omega) (by omega)

theorem startsNumber_toDigits (n : Nat) : startsNumber (Nat.toDigits 10 n) = true := by
  by_cases hZero : n = 0
  · subst hZero
    rfl
  · have hHead := head?_toDigits (Nat.pos_of_ne_zero hZero)
    unfold startsNumber
    split
    · rename_i hNil
      exact absurd hNil Nat.toDigits_ne_nil
    · rename_i hDigits
      simp [hDigits] at hHead
    · rfl

theorem foldl_push {ds : List Char} {s : Significand} (hKept : s.dropped = 0)
    (hFits : Nat.ofDigitChars 10 ds s.value ≤ maxWord) :
    ds.foldl Significand.push s = ⟨Nat.ofDigitChars 10 ds s.value, s.taken + ds.length, 0⟩ := by
  induction ds generalizing s with
  | nil =>
    cases s
    cases hKept
    simp
  | cons c ds ih =>
    have hNext : s.value * 10 + digitValue c = 10 * s.value + (c.toNat - '0'.toNat) := by
      rw [digitValue, Nat.mul_comm]
    rw [Nat.ofDigitChars_cons, ← hNext] at hFits ⊢
    have hWord : s.value * 10 + digitValue c ≤ maxWord := by
      refine Nat.le_trans ?_ hFits
      rw [Nat.ofDigitChars_eq_ofDigitChars_zero]
      exact Nat.le_trans (Nat.le_mul_of_pos_left _ (Nat.pow_pos (by decide))) (Nat.le_add_right _ _)
    have hPush : s.push c = ⟨s.value * 10 + digitValue c, s.taken + 1, 0⟩ := by
      simp [Significand.push, hKept, hWord]
    rw [List.foldl_cons, hPush, ih rfl hFits]
    simp only [List.length_cons]
    congr 1
    omega

theorem readNumber_toDigits (negative : Bool) {n : Nat} (hFits : n ≤ maxWord) :
    readNumber negative (Nat.toDigits 10 n) =
      (wholeNumber negative ⟨n, (Nat.toDigits 10 n).length, 0⟩).map (·, []) := by
  have hDigits : ∀ c ∈ Nat.toDigits 10 n, c.isDigit = true :=
    fun c hc => Nat.isDigit_of_mem_toDigits (by decide) (by decide) hc
  have hTaken : (Nat.toDigits 10 n).takeWhile Char.isDigit = Nat.toDigits 10 n :=
    List.takeWhile_eq_self_iff.mpr hDigits
  have hLeft : (Nat.toDigits 10 n).dropWhile Char.isDigit = [] :=
    List.dropWhile_eq_nil_iff.mpr hDigits
  have hValue : Nat.ofDigitChars 10 (Nat.toDigits 10 n) 0 = n :=
    Nat.ofDigitChars_toDigits (by decide) (by decide)
  rw [readNumber_eq, hTaken, hLeft, if_pos (startsNumber_toDigits n),
    foldl_push rfl (by rwa [hValue]), hValue, readTail_of_head (by simp), Nat.zero_add]

theorem readValue_digit {c : Char} (hDigit : c.isDigit = true) (depth fuel : Nat)
    (cs : List Char) : readValue depth (fuel + 1) (c :: cs) = readNumber false (c :: cs) := by
  have hBlank : isBlank c = false := by
    cases hBlank : isBlank c with
    | false => rfl
    | true =>
      simp only [isBlank, Bool.or_eq_true, decide_eq_true_eq] at hBlank
      rcases hBlank with ((rfl | rfl) | rfl) | rfl <;> cases hDigit
  rw [readValue, skipBlanks_cons hBlank]
  -- None of the other characters that start a value is a digit.
  split <;> rename_i hFound <;> cases hFound
  all_goals
    first
      | cases hDigit
      | rfl

/-- Integers of 64 bits, with or without a sign, are read back. -/
theorem parse?_toString {n : Int} (hLow : -Int.pow 2 63 ≤ n) (hHigh : n < Int.pow 2 64) :
    parse? (toString n) = some (.int n) := by
  have hRead (fuel : Nat) :
      readValue maxDepth (fuel + 1) (toString n).toList = some (.int n, []) := by
    have hWord : (maxWord : Int) = Int.pow 2 64 - 1 := by decide
    have hHalf : ((Nat.pow 2 63 : Nat) : Int) = Int.pow 2 63 := by decide
    have hPower : Int.pow 2 64 = 2 * Int.pow 2 63 := by decide
    rw [Int.toString_eq_repr, Int.repr_eq_if]
    split
    · rename_i hSign
      obtain ⟨m, rfl⟩ := Int.eq_ofNat_of_zero_le hSign
      have hNumber := readNumber_toDigits false (n := m) (by omega)
      rw [Int.toNat_natCast, Nat.toList_repr]
      cases hDigits : Nat.toDigits 10 m with
      | nil => exact absurd hDigits Nat.toDigits_ne_nil
      | cons d ds =>
        have hDigit : d.isDigit = true :=
          Nat.isDigit_of_mem_toDigits (by decide) (by decide) (hDigits ▸ List.mem_cons_self)
        rw [readValue_digit hDigit, ← hDigits, hNumber]
        rfl
    · rename_i hSign
      obtain ⟨m, rfl⟩ : ∃ m : Nat, n = -(m : Int) := ⟨(-n).toNat, by omega⟩
      have hNumber := readNumber_toDigits true (n := m) (by omega)
      have hSmall : ¬(m = 0 ∨ Nat.pow 2 63 < m) := by omega
      rw [Int.neg_neg, Int.toNat_natCast, String.toList_append, Nat.toList_repr]
      have hMinus : "-".toList ++ Nat.toDigits 10 m = '-' :: Nat.toDigits 10 m := by simp
      rw [hMinus, readValue, skipBlanks_cons (by decide)]
      simp [hNumber, wholeNumber, hSmall]
  unfold parse?
  dsimp only
  rw [hRead]
  rfl

/-- Wherever the text stands, it is read as the value; blanks may be left over. -/
def Reads (depth : Nat) (text : List Char) (v : Json) : Prop :=
  ∀ fuel rest, text.length ≤ fuel → EndsNumber rest →
    ∃ gap, (∀ c ∈ gap, isBlank c = true) ∧
      readValue depth fuel (text ++ rest) = some (v, gap ++ rest)

def ReadsField (depth : Nat) (text : List Char) (e : String × Json) : Prop :=
  ∃ value, text = (quote e.1).toList ++ ':' :: ' ' :: value ∧ Reads depth value e.2

theorem reads_number {text : String} {v : Json} (hNumber : isNumber v = true)
    (h : parse? text = some v) (depth : Nat) : Reads depth text.toList v := by
  intro fuel rest hFuel hEnds
  unfold parse? at h
  dsimp only at h
  split at h
  · rename_i w after hRead
    split at h
    · rename_i hBlank
      cases h
      obtain ⟨negative, digits, hDigits, hSame⟩ := exists_readNumber hRead hNumber
      obtain ⟨fuel, rfl⟩ : ∃ k, fuel = k + 1 := by
        refine Nat.exists_eq_succ_of_ne_zero fun hZero => ?_
        have hNil : text.toList = [] := List.eq_nil_of_length_eq_zero (by omega)
        rw [hNil] at hRead
        cases hRead
      refine ⟨after, ?_, ?_⟩
      · exact List.dropWhile_eq_nil_iff.mp (List.isEmpty_iff.mp hBlank)
      · rw [hSame, readNumber_append hEnds hDigits]
    · cases h
  · cases h

theorem readString_quote (s : String) (rest : List Char) :
    ∃ body, (quote s).toList ++ rest = '"' :: body ∧ readString [] body = some (s, rest) := by
  refine ⟨s.toList.flatMap escapeChar ++ '"' :: rest, by simp [quote], ?_⟩
  rw [readString_quoted]
  simp

theorem reads_string (s : String) (depth : Nat) : Reads depth (quote s).toList (.string s) := by
  intro fuel rest hFuel hEnds
  obtain ⟨fuel, rfl⟩ : ∃ k, fuel = k + 1 := by
    refine Nat.exists_eq_succ_of_ne_zero fun hZero => ?_
    simp [hZero, quote] at hFuel
  obtain ⟨body, hBody, hRead⟩ := readString_quote s rest
  refine ⟨[], by simp, ?_⟩
  rw [hBody, readValue, skipBlanks_cons (by decide)]
  simp [hRead]

theorem reads_word {text : String} {v : Json}
    (h : (text, v) ∈ [("null", Json.null), ("true", .bool true), ("false", .bool false)])
    (depth : Nat) : Reads depth text.toList v := by
  intro fuel rest hFuel hEnds
  refine ⟨[], by simp, ?_⟩
  simp only [List.mem_cons, Prod.mk.injEq, List.not_mem_nil, or_false] at h
  rcases h with ⟨rfl, rfl⟩ | ⟨rfl, rfl⟩ | ⟨rfl, rfl⟩
  all_goals
    cases fuel with
    | zero => simp at hFuel
    | succ fuel => rfl

/-! ## Containers -/

section Containers

variable {depth fuel : Nat} {text after : List Char} (hEnds : EndsNumber after)
  (hFuel : text.length ≤ fuel)
include hEnds hFuel

/-- An item is read, and what stands after it says whether there are more. -/
theorem readItems_step {v : Json} (h : Reads depth text v) (acc : List Json) {r : List Char} :
    (skipBlanks after = ',' :: r → readItems depth (fuel + 1) acc (text ++ after) =
      readItems depth fuel (v :: acc) r) ∧
    (skipBlanks after = ']' :: r → readItems depth (fuel + 1) acc (text ++ after) =
      some ((v :: acc).reverse, r)) := by
  obtain ⟨gap, hGap, hRead⟩ := h fuel after hFuel hEnds
  constructor
  · intro hMore
    simp only [readItems, hRead, skipBlanks_append hGap, hMore]
  · intro hLast
    simp only [readItems, hRead, skipBlanks_append hGap, hLast]

theorem readFields_step {e : String × Json} (h : ReadsField depth text e)
    (acc : List (String × Json)) {r : List Char} :
    (skipBlanks after = ',' :: r → readFields depth (fuel + 1) acc (text ++ after) =
      readFields depth fuel (e :: acc) r) ∧
    (skipBlanks after = '\x7d' :: r → readFields depth (fuel + 1) acc (text ++ after) =
      some ((e :: acc).reverse, r)) := by
  obtain ⟨key, v⟩ := e
  obtain ⟨value, rfl, hValue⟩ := h
  simp only [List.length_append, List.length_cons] at hFuel
  obtain ⟨gap, hGap, hRead⟩ := hValue fuel after (by omega) hEnds
  obtain ⟨body, hBody, hKey⟩ := readString_quote key (':' :: ' ' :: (value ++ after))
  have hFront : (quote key).toList ++ ':' :: ' ' :: value ++ after = '"' :: body := by
    rw [← hBody]
    simp
  have hBlank : readValue depth fuel (' ' :: (value ++ after)) = some (v, gap ++ after) := by
    have hGapOne : ∀ c ∈ [' '], isBlank c = true := by simp [isBlank]
    rw [← hRead]
    exact readValue_gap hGapOne depth fuel (value ++ after)
  have hQuote : isBlank '"' = false := by decide
  have hColon : isBlank ':' = false := by decide
  rw [hFront]
  constructor
  · intro hMore
    simp only [readFields, skipBlanks_cons hQuote, hKey, skipBlanks_cons hColon, hBlank,
      skipBlanks_append hGap, hMore]
  · intro hLast
    simp only [readFields, skipBlanks_cons hQuote, hKey, skipBlanks_cons hColon, hBlank,
      skipBlanks_append hGap, hLast]

end Containers

section Lines

variable {depth : Nat} {inner tail : List Char} (hInner : ∀ c ∈ inner, isBlank c = true)
  (hTail : ∀ c ∈ '\n' :: tail, isBlank c = true)
include hInner hTail

theorem readItems_intercalate (text : Json → List Char) (v : Json) (items : List Json)
    (h : ∀ w ∈ v :: items, Reads depth (text w) w) (rest : List Char) (fuel : Nat)
    (acc : List Json) (hFuel : ((',' :: inner).intercalate ((v :: items).map text)).length < fuel) :
    readItems depth fuel acc ((',' :: inner).intercalate ((v :: items).map text) ++
      ('\n' :: tail ++ ']' :: rest)) = some (acc.reverse ++ v :: items, rest) := by
  obtain ⟨fuel, rfl⟩ : ∃ k, fuel = k + 1 := Nat.exists_eq_succ_of_ne_zero (by omega)
  have hFirst := h v List.mem_cons_self
  have hComma : isBlank ',' = false := by decide
  have hClose (rest : List Char) : skipBlanks ('\n' :: tail ++ ']' :: rest) = ']' :: rest := by
    rw [skipBlanks_append hTail, skipBlanks_cons (by decide)]
  induction items generalizing v fuel acc with
  | nil =>
    rw [List.map_singleton, List.intercalate_singleton] at hFuel ⊢
    rw [(readItems_step (by simp [EndsNumber]) (by omega) hFirst acc).2 (hClose rest)]
    simp
  | cons w items ih =>
    rw [List.map_cons, List.map_cons, List.intercalate_cons_cons, ← List.map_cons] at hFuel ⊢
    simp only [List.length_append, List.length_cons] at hFuel
    obtain ⟨fuel, rfl⟩ : ∃ k, fuel = k + 1 := Nat.exists_eq_succ_of_ne_zero (by omega)
    have hLater := ih w (fun x hx => h x (List.mem_cons_of_mem v hx)) (v :: acc) fuel (by omega)
      (h w (by simp))
    rw [List.append_assoc, List.append_assoc, @List.cons_append _ ',' inner,
      (readItems_step (by simp [EndsNumber]) (by omega) hFirst acc).1 (skipBlanks_cons hComma _),
      readItems_gap hInner, hLater]
    simp

theorem readFields_intercalate (text : String × Json → List Char) (e : String × Json)
    (fields : List (String × Json)) (h : ∀ f ∈ e :: fields, ReadsField depth (text f) f)
    (rest : List Char) (fuel : Nat) (acc : List (String × Json))
    (hFuel : ((',' :: inner).intercalate ((e :: fields).map text)).length < fuel) :
    readFields depth fuel acc ((',' :: inner).intercalate ((e :: fields).map text) ++
      ('\n' :: tail ++ '\x7d' :: rest)) = some (acc.reverse ++ e :: fields, rest) := by
  obtain ⟨fuel, rfl⟩ : ∃ k, fuel = k + 1 := Nat.exists_eq_succ_of_ne_zero (by omega)
  have hFirst := h e List.mem_cons_self
  have hComma : isBlank ',' = false := by decide
  have hClose (rest : List Char) :
      skipBlanks ('\n' :: tail ++ '\x7d' :: rest) = '\x7d' :: rest := by
    rw [skipBlanks_append hTail, skipBlanks_cons (by decide)]
  induction fields generalizing e fuel acc with
  | nil =>
    rw [List.map_singleton, List.intercalate_singleton] at hFuel ⊢
    rw [(readFields_step (by simp [EndsNumber]) (by omega) hFirst acc).2 (hClose rest)]
    simp
  | cons f fields ih =>
    rw [List.map_cons, List.map_cons, List.intercalate_cons_cons, ← List.map_cons] at hFuel ⊢
    simp only [List.length_append, List.length_cons] at hFuel
    obtain ⟨fuel, rfl⟩ : ∃ k, fuel = k + 1 := Nat.exists_eq_succ_of_ne_zero (by omega)
    have hLater := ih f (fun x hx => h x (List.mem_cons_of_mem e hx)) (e :: acc) fuel (by omega)
      (h f (by simp))
    rw [List.append_assoc, List.append_assoc, @List.cons_append _ ',' inner,
      (readFields_step (by simp [EndsNumber]) (by omega) hFirst acc).1 (skipBlanks_cons hComma _),
      readFields_gap hInner, hLater]
    simp

end Lines

theorem readValue_array {limit fuel : Nat} {gap cs rest : List Char} {items : List Json}
    (hGap : ∀ c ∈ gap, isBlank c = true) (h : readItems limit fuel [] cs = some (items, rest)) :
    readValue (limit + 1) (fuel + 1) ('[' :: (gap ++ cs)) = some (.array items, rest) := by
  -- An item does not start with the bracket that closes the list.
  have hOpen (r : List Char) : skipBlanks cs ≠ ']' :: r := by
    intro hClose
    cases fuel with
    | zero => cases h
    | succ fuel =>
      cases fuel with
      | zero => simp [readItems, readValue] at h
      | succ fuel => simp [readItems, readValue, hClose, readNumber] at h
  have hFirst : readItems limit fuel [] (skipBlanks cs) = some (items, rest) := by
    cases fuel with
    | zero => cases h
    | succ fuel =>
      cases fuel with
      | zero => simp [readItems, readValue] at h
      | succ fuel =>
        simp only [readItems, readValue, skipBlanks_skipBlanks] at h ⊢
        exact h
  rw [readValue, skipBlanks_cons (by decide)]
  simp only [Nat.succ_ne_zero, if_false, skipBlanks_append hGap, Nat.add_sub_cancel]
  rw [hFirst]
  rfl

theorem readValue_object {limit fuel : Nat} {gap cs rest : List Char}
    {fields : List (String × Json)} (hGap : ∀ c ∈ gap, isBlank c = true)
    (h : readFields limit fuel [] cs = some (fields, rest)) :
    readValue (limit + 1) (fuel + 1) ('\x7b' :: (gap ++ cs)) = some (.object fields, rest) := by
  have hOpen (r : List Char) : skipBlanks cs ≠ '\x7d' :: r := by
    intro hClose
    cases fuel with
    | zero => cases h
    | succ fuel => simp [readFields, hClose] at h
  have hFirst : readFields limit fuel [] (skipBlanks cs) = some (fields, rest) := by
    cases fuel with
    | zero => cases h
    | succ fuel =>
      simp only [readFields, skipBlanks_skipBlanks] at h ⊢
      exact h
  rw [readValue, skipBlanks_cons (by decide)]
  simp only [Nat.succ_ne_zero, if_false, skipBlanks_append hGap, Nat.add_sub_cancel]
  rw [hFirst]
  rfl

def lineStart (indent : String) : List Char := '\n' :: (indent.toList ++ [' ', ' '])

theorem toList_enclose (opening closing indent : String) {texts : List String}
    (h : texts ≠ []) : (enclose opening closing indent texts).toList =
      opening.toList ++ (lineStart indent ++
        ((',' :: lineStart indent).intercalate (texts.map String.toList) ++
          ('\n' :: indent.toList ++ closing.toList))) := by
  have hSome : texts.isEmpty = false := by simpa using h
  simp [enclose, hSome, String.toList_intercalate, lineStart]

/-- Every number is read back on its own, and no more than `limit` containers stand within each
other. -/
inductive Readable : Nat → Json → Prop where
  | null {limit : Nat} : Readable limit .null
  | bool {limit : Nat} (b : Bool) : Readable limit (.bool b)
  | string {limit : Nat} (s : String) : Readable limit (.string s)
  | number {limit : Nat} {v : Json} : isNumber v = true → parse? (v.pretty "") = some v →
      Readable limit v
  | array {limit : Nat} {items : List Json} : (∀ v ∈ items, Readable limit v) →
      Readable (limit + 1) (.array items)
  | object {limit : Nat} {fields : List (String × Json)} : (∀ e ∈ fields, Readable limit e.2) →
      Readable (limit + 1) (.object fields)

theorem readable_array_iff {limit : Nat} {items : List Json} :
    Readable (limit + 1) (.array items) ↔ ∀ v ∈ items, Readable limit v := by
  refine ⟨fun h => ?_, .array⟩
  cases h with
  | number hNumber => cases hNumber
  | array hItems => exact hItems

theorem readable_object_iff {limit : Nat} {fields : List (String × Json)} :
    Readable (limit + 1) (.object fields) ↔ ∀ e ∈ fields, Readable limit e.2 := by
  refine ⟨fun h => ?_, .object⟩
  cases h with
  | number hNumber => cases hNumber
  | object hFields => exact hFields

theorem Readable.int {n : Int} (hLow : -Int.pow 2 63 ≤ n) (hHigh : n < Int.pow 2 64)
    (limit : Nat) : Readable limit (.int n) :=
  .number rfl (parse?_toString hLow hHigh)

theorem prettyItems_eq_map (indent : String) (items : List Json) :
    prettyItems indent items = items.map (pretty indent) := by
  induction items with
  | nil => rfl
  | cons v items ih => rw [prettyItems, ih, List.map_cons]

theorem prettyFields_eq_map (indent : String) (fields : List (String × Json)) :
    prettyFields indent fields = fields.map fun e => quote e.1 ++ ": " ++ pretty indent e.2 := by
  induction fields with
  | nil => rfl
  | cons e fields ih => rw [prettyFields, ih, List.map_cons]

section Lines

variable {indent : String} (hIndent : ∀ c ∈ indent.toList, isBlank c = true)
include hIndent

theorem blank_lineStart : ∀ c ∈ lineStart indent, isBlank c = true := by
  intro c hc
  simp only [lineStart, List.mem_cons, List.mem_append, List.not_mem_nil, or_false] at hc
  rcases hc with rfl | hIn | rfl | rfl
  · decide
  · exact hIndent c hIn
  · decide
  · decide

theorem blank_deeper : ∀ c ∈ (indent ++ "  ").toList, isBlank c = true := by
  intro c hc
  rw [String.toList_append] at hc
  exact blank_lineStart hIndent c (List.mem_cons_of_mem '\n' hc)

theorem blank_lineEnd : ∀ c ∈ '\n' :: indent.toList, isBlank c = true := by
  intro c hc
  rcases List.mem_cons.mp hc with rfl | hIn
  · decide
  · exact hIndent c hIn

theorem reads_array {limit : Nat} {items : List Json}
    (h : ∀ v ∈ items, Reads limit (pretty (indent ++ "  ") v).toList v) :
    Reads (limit + 1) (pretty indent (.array items)).toList (.array items) := by
  intro fuel rest hFuel hEnds
  rw [pretty, prettyItems_eq_map] at hFuel ⊢
  refine ⟨[], by simp, ?_⟩
  cases items with
  | nil =>
    cases fuel with
    | zero => simp [enclose] at hFuel
    | succ fuel =>
      have hText : (enclose "[" "]" indent []).toList = ['[', ']'] := by simp [enclose]
      rw [List.map_nil, hText]
      rfl
  | cons v items =>
    have hBracket : "[".toList.length = 1 := by simp
    rw [toList_enclose _ _ _ (by simp), List.map_map] at hFuel ⊢
    simp only [List.length_append, List.length_cons] at hFuel
    obtain ⟨fuel, rfl⟩ : ∃ k, fuel = k + 1 := Nat.exists_eq_succ_of_ne_zero (by omega)
    have hItems := readItems_intercalate (blank_lineStart hIndent) (blank_lineEnd hIndent)
      (String.toList ∘ pretty (indent ++ "  ")) v items h rest fuel [] (by omega)
    simpa using readValue_array (blank_lineStart hIndent) hItems

theorem reads_object {limit : Nat} {fields : List (String × Json)}
    (h : ∀ e ∈ fields, Reads limit (pretty (indent ++ "  ") e.2).toList e.2) :
    Reads (limit + 1) (pretty indent (.object fields)).toList (.object fields) := by
  intro fuel rest hFuel hEnds
  rw [pretty, prettyFields_eq_map] at hFuel ⊢
  refine ⟨[], by simp, ?_⟩
  cases fields with
  | nil =>
    cases fuel with
    | zero => simp [enclose] at hFuel
    | succ fuel =>
      have hText : (enclose "\x7b" "\x7d" indent []).toList = ['\x7b', '\x7d'] := by simp [enclose]
      rw [List.map_nil, hText]
      rfl
  | cons e fields =>
    have hBrace : "\x7b".toList.length = 1 := by simp
    rw [toList_enclose _ _ _ (by simp), List.map_map] at hFuel ⊢
    simp only [List.length_append, List.length_cons] at hFuel
    obtain ⟨fuel, rfl⟩ : ∃ k, fuel = k + 1 := Nat.exists_eq_succ_of_ne_zero (by omega)
    have hField : ∀ f ∈ e :: fields, ReadsField limit
        ((String.toList ∘ fun f => quote f.1 ++ ": " ++ pretty (indent ++ "  ") f.2) f) f :=
      fun f hf => ⟨_, by simp, h f hf⟩
    have hFields := readFields_intercalate (blank_lineStart hIndent) (blank_lineEnd hIndent) _ e
      fields hField rest fuel [] (by omega)
    simpa using readValue_object (blank_lineStart hIndent) hFields

end Lines

theorem reads_pretty {limit : Nat} {v : Json} (h : Readable limit v) {indent : String}
    (hIndent : ∀ c ∈ indent.toList, isBlank c = true) :
    Reads limit (pretty indent v).toList v := by
  induction h generalizing indent with
  | null => exact reads_word (by simp [pretty]) _
  | bool b => cases b <;> exact reads_word (by simp [pretty]) _
  | string s => exact reads_string s _
  | @number limit v hNumber hParse =>
    have hText : pretty indent v = pretty "" v := by
      cases v <;> first | rfl | cases hNumber
    rw [hText]
    exact reads_number hNumber hParse limit
  | array _ ih => exact reads_array hIndent fun v hv => ih v hv (blank_deeper hIndent)
  | object _ ih => exact reads_object hIndent fun e he => ih e he (blank_deeper hIndent)

/-- A printed value is read back. -/
theorem parse?_pretty {v : Json} (h : Readable maxDepth v) : parse? (v.pretty "") = some v := by
  have hIndent : ∀ c ∈ "".toList, isBlank c = true := by simp
  have hEnds : EndsNumber [] := by simp [EndsNumber]
  obtain ⟨gap, hGap, hRead⟩ := reads_pretty h hIndent (2 * (v.pretty "").toList.length + 2) []
    (by omega) hEnds
  have hLeft : skipBlanks gap = [] := List.dropWhile_eq_nil_iff.mpr hGap
  rw [List.append_nil, List.append_nil] at hRead
  unfold parse?
  dsimp only
  rw [hRead]
  simp [hLeft]

end ClusterInventory.Json
