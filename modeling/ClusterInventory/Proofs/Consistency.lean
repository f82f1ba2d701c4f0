import ClusterInventory.Proofs.Reference

/-! # Consistent references

However a reference comes about, it knows the places of the separators in its text. Its parts are
cut out of the bytes of the text, and every cut falls between two characters.
-/

namespace ClusterInventory

/-! ## Cuts -/

/-- What stands in a text from one byte up to another. There is no such part if a byte lies beyond
the end or within a character, or if the first one lies behind the second. -/
def slice? (text : String) (start stop : Nat) : Option String :=
  if h : String.Pos.Raw.IsValid text ⟨start⟩ ∧ String.Pos.Raw.IsValid text ⟨stop⟩ then
    (text.slice? ⟨⟨start⟩, h.1⟩ ⟨⟨stop⟩, h.2⟩).map String.Slice.copy
  else none

def byteAt (text : String) (place : Nat) : Nat :=
  (String.ofList (text.toList.take place)).utf8ByteSize

theorem byteAt_append (before after : String) :
    byteAt (before ++ after) before.length = before.utf8ByteSize := by
  rw [byteAt, take_toList_append, String.ofList_toList]

theorem slice?_append (before part after : String) :
    slice? (before ++ part ++ after) before.utf8ByteSize
      (before.utf8ByteSize + part.utf8ByteSize) = some part := by
  have hStart : String.Pos.Raw.IsValid (before ++ part ++ after) ⟨before.utf8ByteSize⟩ :=
    String.Pos.Raw.isValid_iff_exists_append.mpr
      ⟨before, part ++ after, String.append_assoc .., rfl⟩
  have hStop : String.Pos.Raw.IsValid (before ++ part ++ after)
      ⟨before.utf8ByteSize + part.utf8ByteSize⟩ :=
    String.Pos.Raw.isValid_iff_exists_append.mpr
      ⟨before ++ part, after, rfl, by rw [String.rawEndPos, String.utf8ByteSize_append]⟩
  rw [slice?, dif_pos ⟨hStart, hStop⟩, String.slice?,
    dif_pos (by simp [String.Pos.le_iff, String.Pos.Raw.le_iff]), Option.map_some,
    Option.some.injEq, ← String.toByteArray_inj, String.Slice.toByteArray_copy]
  simp only [String.str_slice, String.startInclusive_slice, String.endExclusive_slice,
    String.toByteArray_append, ← String.size_toByteArray]
  rw [ByteArray.extract_append, ByteArray.extract_append_eq_right rfl rfl]
  simp

theorem slice?_prefix (part after : String) :
    slice? (part ++ after) 0 part.utf8ByteSize = some part := by
  simpa using slice?_append "" part after

theorem slice?_suffix (before part : String) :
    slice? (before ++ part) before.utf8ByteSize (before ++ part).utf8ByteSize = some part := by
  simpa [String.utf8ByteSize_append] using slice?_append before part ""

namespace KindRef

/-! ## Parts as they are cut -/

def groupByte (r : KindRef) : Option Nat := r.groupAt.map (byteAt r.text)

def versionByte (r : KindRef) : Option Nat := r.versionAt.map (byteAt r.text)

def nameCut (r : KindRef) : Option String :=
  match r.groupByte.or r.versionByte with
  | some stop => slice? r.text 0 stop
  | none => some r.text

def groupCut (r : KindRef) : Option String :=
  match r.groupByte, r.versionByte with
  | some g, some v => if g + 1 < v then slice? r.text (g + 1) v else some ""
  | some g, none => slice? r.text (g + 1) r.text.utf8ByteSize
  | none, _ => some ""

def versionCut (r : KindRef) : Option String :=
  match r.versionByte with
  | some v => slice? r.text (v + 1) r.text.utf8ByteSize
  | none => some ""

namespace Parts

variable (p : Parts)

theorem size_name_dot : (p.name ++ ".").utf8ByteSize = p.name.utf8ByteSize + 1 :=
  String.utf8ByteSize_append

theorem groupByte_toRef : p.toRef.groupByte = p.group.map fun _ => p.name.utf8ByteSize := by
  have hByte : byteAt p.text p.name.length = p.name.utf8ByteSize := by
    rw [text_eq_name_append, byteAt_append]
  simp [KindRef.groupByte, toRef, Function.comp_def, hByte]

theorem versionByte_toRef : p.toRef.versionByte = p.version.map fun _ => p.head.utf8ByteSize := by
  have hByte : byteAt p.text p.head.length = p.head.utf8ByteSize := by
    rw [text, byteAt_append]
  simp [KindRef.versionByte, toRef, Function.comp_def, hByte]

theorem orByte_toRef : p.toRef.groupByte.or p.toRef.versionByte =
    if p.group = none ∧ p.version = none then none else some p.name.utf8ByteSize := by
  rw [groupByte_toRef, versionByte_toRef]
  obtain ⟨name, _ | group, _ | version⟩ := p <;> simp [head]

theorem nameCut_toRef : p.toRef.nameCut = some p.name := by
  unfold nameCut
  rw [orByte_toRef]
  by_cases hNone : p.group = none ∧ p.version = none
  · rw [if_pos hNone]
    exact congrArg some (p.text_eq_name hNone.1 hNone.2)
  · rw [if_neg hNone]
    change slice? p.text 0 p.name.utf8ByteSize = some p.name
    rw [text_eq_name_append, slice?_prefix]

theorem groupCut_toRef : p.toRef.groupCut = some (p.group.getD "") := by
  unfold groupCut
  rw [groupByte_toRef, versionByte_toRef]
  cases hGroup : p.group with
  | none => rfl
  | some group =>
    have hHead := p.head_eq_group_append hGroup
    have hSize : p.head.utf8ByteSize = p.name.utf8ByteSize + 1 + group.utf8ByteSize := by
      rw [hHead, String.utf8ByteSize_append, p.size_name_dot]
    cases hVersion : p.version with
    | none =>
      change slice? p.text (p.name.utf8ByteSize + 1) p.text.utf8ByteSize = some group
      rw [p.text_eq_head hVersion, hHead, ← p.size_name_dot, slice?_suffix]
    | some version =>
      change (if p.name.utf8ByteSize + 1 < p.head.utf8ByteSize then
        slice? p.text (p.name.utf8ByteSize + 1) p.head.utf8ByteSize else some "") = some group
      split
      · rw [p.text_eq_version_append hVersion, hSize, hHead, ← p.size_name_dot,
          String.append_assoc, slice?_append]
      · have hEmpty : group = "" := String.utf8ByteSize_eq_zero_iff.mp (by omega)
        rw [hEmpty]

theorem versionCut_toRef : p.toRef.versionCut = some (p.version.getD "") := by
  unfold versionCut
  rw [versionByte_toRef]
  cases hVersion : p.version with
  | none => rfl
  | some version =>
    have hSlash : (p.head ++ "/").utf8ByteSize = p.head.utf8ByteSize + 1 :=
      String.utf8ByteSize_append
    change slice? p.text (p.head.utf8ByteSize + 1) p.text.utf8ByteSize = some version
    rw [p.text_eq_version_append hVersion, ← hSlash, slice?_suffix]

end Parts

/-! ## References that are built -/

inductive Built : KindRef → Prop
  | ofText (text : String) : Built (.ofText text)
  | ofParts (name group version : String) : Built (.ofParts name group version)
  | ofKind (kind : Kind) : Built (.ofKind kind)
  | empty : Built .empty

/-- Every reference is read from a text. -/
theorem Built.exists_ofText {r : KindRef} (h : r.Built) : ∃ text, r = KindRef.ofText text := by
  cases h with
  | ofText text => exact ⟨text, rfl⟩
  | ofParts name group version => exact ⟨_, (Parts.ofText_text_ofKind ⟨group, version, name⟩).symm⟩
  | ofKind kind => exact ⟨_, (Parts.ofText_text_ofKind kind).symm⟩
  | empty => exact ⟨"", rfl⟩

theorem Built.reread {r : KindRef} (h : r.Built) : KindRef.ofText r.text = r := by
  obtain ⟨text, rfl⟩ := h.exists_ofText
  exact ofText_text_ofText text

/-- A reference whose separators are where it says, so that its parts can be cut out and make up
its text. -/
structure Consistent (r : KindRef) : Prop where
  separators : KindRef.separators r.text.toList = (r.groupAt, r.versionAt)
  nameCut : r.nameCut = some r.name
  groupCut : r.groupCut = some r.group
  versionCut : r.versionCut = some r.version
  text : r.text = r.name ++ (if r.groupAt.isSome then "." ++ r.group else "") ++
    (if r.versionAt.isSome then "/" ++ r.version else "")
  plain : r.toKind.Plain
  reread : ofText r.text = r

theorem Built.consistent {r : KindRef} (h : r.Built) : r.Consistent := by
  have hReread := h.reread
  obtain ⟨text, hText⟩ := h.exists_ofText
  obtain ⟨p, hApart, -, hRead⟩ := exists_parts_of_ofText text
  obtain rfl : r = p.toRef := hText.trans hRead
  refine ⟨hApart.separators_text, ?_, ?_, ?_, ?_, hApart.plain, hReread⟩
  · rw [Parts.nameCut_toRef, Parts.name_toRef]
  · rw [Parts.groupCut_toRef, Parts.group_toRef]
  · rw [Parts.versionCut_toRef, Parts.version_toRef]
  · rw [Parts.name_toRef, Parts.group_toRef, Parts.version_toRef]
    obtain ⟨name, _ | group, _ | version⟩ := p <;> simp [Parts.toRef, Parts.text, Parts.head]

/-- Every reference is consistent, and references that are equal have equal parts. -/
theorem built_consistent :
    (∀ r : KindRef, r.Built → r.Consistent) ∧
      ∀ r other : KindRef, r.Built → other.Built → (r == other) = true →
        r.name = other.name ∧ r.group = other.group ∧ r.version = other.version := by
  refine ⟨fun r hBuilt => hBuilt.consistent, ?_⟩
  intro r other hBuilt hOther hEqual
  have hText : r.text = other.text := beq_iff_eq.mp hEqual
  have hSame : r = other := by rw [← hBuilt.reread, hText, hOther.reread]
  rw [hSame]
  exact ⟨rfl, rfl, rfl⟩

/-- Bytes are not places: an umlaut takes up two bytes. -/
theorem built_consistent_umlaut :
    let r := ofText "Größe.möbel/v2/β"
    let short := ofText "Größe./v1"
    let bare := ofParts "Größe" "" ""
    r.Built ∧ short.Built ∧ bare.Built ∧ (short == bare) = true ∧
      (r.groupAt, r.versionAt) = (some 5, some 11) ∧
      (r.groupByte, r.versionByte) = (some 7, some 14) ∧
      slice? r.text 0 3 = none ∧ r.Consistent ∧
      short.name = bare.name ∧ short.group = bare.group ∧ short.version = bare.version := by
  intro r short bare
  have hEqual : (short == bare) = true := by decide +kernel
  exact ⟨.ofText _, .ofText _, .ofParts _ _ _, hEqual, by decide +kernel, by decide +kernel,
    by decide +kernel, built_consistent.1 r (.ofText _),
    built_consistent.2 short bare (.ofText _) (.ofParts _ _ _) hEqual⟩

end KindRef

end ClusterInventory
