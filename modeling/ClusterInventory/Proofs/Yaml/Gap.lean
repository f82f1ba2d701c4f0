import ClusterInventory.Yaml.Token

/-! # Words and gaps

A text that is read is made of words, which hold neither blanks nor breaks, and of the gaps between
them. Of the breaks only those can stand in a text as they are that may be printed, and these are
read as they are. A gap ends where a word starts, or with the text.
-/

namespace ClusterInventory.Yaml

/-! ## Characters -/

def Solid (c : Char) : Prop := isBlank c = false ∧ isBreak c = false

def StartsSolid (cs : List Char) : Prop := ∀ c ∈ cs.head?, Solid c

def LineBreak (c : Char) : Prop := isBreak c = true ∧ isPrintable c = true

theorem startsSolid_nil : StartsSolid [] := nofun

theorem startsSolid_cons {c : Char} {rest : List Char} : StartsSolid (c :: rest) ↔ Solid c := by
  simp [StartsSolid]

theorem StartsSolid.append {cs rest : List Char} (h : StartsSolid cs) (hRest : StartsSolid rest) :
    StartsSolid (cs ++ rest) := by
  cases cs with
  | nil => exact hRest
  | cons c cs => exact startsSolid_cons.mpr (startsSolid_cons.mp h)

theorem endsToken_of_solid {c : Char} (h : Solid c) : endsToken (some c) = false := by
  simp [endsToken, h.1, h.2]

theorem lineBreak_newline : LineBreak '\n' := ⟨by decide, by decide⟩

theorem LineBreak.isBlank {c : Char} (h : LineBreak c) : isBlank c = false := by
  rw [← Bool.not_eq_true]
  intro hBlank
  obtain rfl | rfl : c = ' ' ∨ c = '\t' := by simpa [Yaml.isBlank] using hBlank
  · exact absurd h.1 (by decide)
  · exact absurd h.1 (by decide)

/-- Of the breaks the return and the next line are not printed. -/
theorem LineBreak.toNat {c : Char} (h : LineBreak c) :
    c.toNat = 0x0A ∨ c.toNat = 0x2028 ∨ c.toNat = 0x2029 := by
  obtain ⟨hBreak, hPrintable⟩ := h
  simp only [isBreak, Bool.or_eq_true, decide_eq_true_eq] at hBreak
  rcases hBreak with (((rfl | rfl) | hNext) | hLine) | hParagraph
  · exact .inl rfl
  · exact absurd hPrintable (by decide)
  · simp [isPrintable, hNext] at hPrintable
  · exact .inr (.inl hLine)
  · exact .inr (.inr hParagraph)

theorem LineBreak.ne_return {c : Char} (h : LineBreak c) : c ≠ '\r' := by
  rintro rfl
  exact absurd h.2 (by decide)

namespace Cursor

/-- A break that is printed is read as it is. -/
theorem takeBreak_cons {b : Char} (h : LineBreak b) (rest : List Char) (index line column : Nat) :
    takeBreak ⟨b :: rest, index, line, column⟩ = ([b], ⟨rest, index + 1, line + 1, 0⟩) := by
  have hText : (if 0x2028 ≤ b.toNat then [b] else ['\n']) = [b] := by
    split
    · rfl
    · rename_i hLow
      have hFeed : b.toNat = '\n'.toNat := by
        have := h.toNat
        change b.toNat = 0x0A
        omega
      rw [Char.toNat_inj.mp hFeed]
  unfold takeBreak
  split
  · rename_i hReturn
    exact absurd (List.cons.inj hReturn).1 h.ne_return
  · rename_i hCons
    obtain ⟨rfl, rfl⟩ := List.cons.inj hCons
    rw [if_pos h.1, hText]
  · rename_i hNil
    cases hNil

theorem skip_mk (cs : List Char) (index line column n : Nat) :
    skip ⟨cs, index, line, column⟩ n = ⟨cs.drop n, index + n, line, column + n⟩ := rfl

end Cursor

theorem exists_span (p : Char → Bool) (cs : List Char) :
    ∃ front rest, cs = front ++ rest ∧ (∀ c ∈ front, p c = true) ∧
      ∀ c ∈ rest.head?, p c = false := by
  induction cs with
  | nil => exact ⟨[], [], rfl, nofun, nofun⟩
  | cons c cs ih =>
    cases hp : p c with
    | false => exact ⟨[], c :: cs, rfl, nofun, by simpa using hp⟩
    | true =>
      obtain ⟨front, rest, rfl, hFront, hRest⟩ := ih
      exact ⟨c :: front, rest, rfl, by simpa [hp] using hFront, hRest⟩

/-- A text is a word, or it has a first word and blanks after that. -/
theorem exists_word (cs : List Char) : (∀ c ∈ cs, c ≠ ' ') ∨
    ∃ w count rest, cs = w ++ (List.replicate (count + 1) ' ' ++ rest) ∧ (∀ c ∈ w, c ≠ ' ') ∧
      rest.head? ≠ some ' ' := by
  obtain ⟨w, later, rfl, hWord, hLater⟩ := exists_span (· != ' ') cs
  obtain ⟨blanks, rest, rfl, hBlanks, hRest⟩ := exists_span (· == ' ') later
  have hInWord : ∀ c ∈ w, c ≠ ' ' := fun c hc => by simpa using hWord c hc
  have hSpaces : blanks = List.replicate blanks.length ' ' :=
    List.eq_replicate_of_mem fun c hc => by simpa using hBlanks c hc
  cases hCount : blanks.length with
  | zero =>
    obtain rfl : blanks = [] := List.length_eq_zero_iff.mp hCount
    cases rest with
    | nil => exact .inl (by simpa using hInWord)
    | cons c rest =>
      have hSpace : c = ' ' := by simpa using hLater c rfl
      exact absurd (hRest c rfl) (by simp [hSpace])
  | succ count =>
    refine .inr ⟨w, count, rest, by rw [hSpaces, hCount], hInWord, ?_⟩
    intro hSpace
    simpa using hRest ' ' hSpace

/-! ## Gaps -/

section Gaps

variable (leftmost : Nat) (blanks first more : List Char) (index line column : Nat)

theorem takeGap_of_startsSolid {cs : List Char} (h : StartsSolid cs) (g : Gap) (fuel : Nat) :
    takeGap leftmost g ⟨cs, index, line, column⟩ fuel = some (g, ⟨cs, index, line, column⟩) := by
  cases fuel with
  | zero => rfl
  | succ fuel =>
    cases cs with
    | nil => rfl
    | cons c rest =>
      obtain ⟨hBlank, hBreak⟩ := startsSolid_cons.mp h
      simp [takeGap, hBlank, hBreak]

/-- Blanks before a break are kept. -/
theorem takeGap_blanks (count : Nat) (rest : List Char) (fuel : Nat) :
    takeGap leftmost ⟨blanks, false, first, more⟩
        ⟨List.replicate count ' ' ++ rest, index, line, column⟩ (count + fuel) =
      takeGap leftmost ⟨blanks ++ List.replicate count ' ', false, first, more⟩
        ⟨rest, index + count, line, column + count⟩ fuel := by
  induction count generalizing blanks index column with
  | zero => simp
  | succ count ih =>
    have hBlank : isBlank ' ' = true := by decide
    rw [Nat.succ_add, takeGap]
    simp only [List.replicate_succ, List.cons_append, hBlank, if_true, Bool.false_eq_true,
      if_false, Cursor.skip_mk, List.drop_one, List.tail_cons]
    rw [ih]
    simp [Nat.add_assoc, Nat.add_comm 1]

/-- Blanks after a break are dropped. -/
theorem takeGap_indentation (count : Nat) (rest : List Char) (fuel : Nat) :
    takeGap leftmost ⟨blanks, true, first, more⟩
        ⟨List.replicate count ' ' ++ rest, index, line, column⟩ (count + fuel) =
      takeGap leftmost ⟨blanks, true, first, more⟩ ⟨rest, index + count, line, column + count⟩
        fuel := by
  induction count generalizing index column with
  | zero => simp
  | succ count ih =>
    have hBlank : isBlank ' ' = true := by decide
    have hTab : (' ' : Char) ≠ '\t' := by decide
    rw [Nat.succ_add, takeGap]
    simp only [List.replicate_succ, List.cons_append, hBlank, hTab, if_true, decide_false,
      Bool.false_and, Bool.false_eq_true, if_false, Cursor.skip_mk, List.drop_one, List.tail_cons]
    rw [ih]
    simp [Nat.add_assoc, Nat.add_comm 1]

theorem takeGap_first {b : Char} (h : LineBreak b) (rest : List Char) (fuel : Nat) :
    takeGap leftmost ⟨blanks, false, first, more⟩ ⟨b :: rest, index, line, column⟩ (fuel + 1) =
      takeGap leftmost ⟨blanks, true, [b], more⟩ ⟨rest, index + 1, line + 1, 0⟩ fuel := by
  rw [takeGap]
  simp only [h.isBlank, h.1, Cursor.takeBreak_cons h, if_true, Bool.false_eq_true, if_false]

theorem takeGap_more {bs : List Char} (h : ∀ b ∈ bs, LineBreak b) (rest : List Char) (fuel : Nat) :
    takeGap leftmost ⟨blanks, true, first, more⟩ ⟨bs ++ rest, index, line, 0⟩
        (bs.length + fuel) =
      takeGap leftmost ⟨blanks, true, first, more ++ bs⟩
        ⟨rest, index + bs.length, line + bs.length, 0⟩ fuel := by
  induction bs generalizing more index line with
  | nil => simp
  | cons b bs ih =>
    have hFirst := h b List.mem_cons_self
    rw [List.length_cons, Nat.succ_add, List.cons_append, takeGap]
    simp only [hFirst.isBlank, hFirst.1, Cursor.takeBreak_cons hFirst, if_true,
      Bool.false_eq_true, if_false]
    rw [ih _ _ _ fun other hOther => h other (List.mem_cons_of_mem b hOther)]
    simp [Nat.add_assoc, Nat.add_comm 1]

end Gaps

end ClusterInventory.Yaml
