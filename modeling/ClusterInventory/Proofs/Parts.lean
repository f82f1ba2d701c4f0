import ClusterInventory.KindRef

/-! # The parts of references

A reference is made of a name, a group and a version with the separators between them. Every text
has such parts. Reading it comes to the reference that is made of them, except that the core version
of an empty group is dropped.
-/

namespace ClusterInventory

theorem take_toList_append (before after : String) :
    (before ++ after).toList.take before.length = before.toList := by
  rw [String.toList_append, List.take_left' String.length_toList]

theorem drop_toList_append (before after : String) :
    (before ++ after).toList.drop before.length = after.toList := by
  rw [String.toList_append, List.drop_left' String.length_toList]

/-- The name of a reference, and its group and its version where it has their separators. -/
structure KindRef.Parts where
  name : String
  group : Option String
  version : Option String

namespace KindRef.Parts

def head (p : Parts) : String := p.name ++ p.group.elim "" ("." ++ ·)

def text (p : Parts) : String := p.head ++ p.version.elim "" ("/" ++ ·)

def toRef (p : Parts) : KindRef where
  text := p.text
  groupAt := p.group.map fun _ => p.name.length
  versionAt := p.version.map fun _ => p.head.length

def elided (p : Parts) : Parts :=
  if p.group = some "" ∧ p.version = some coreVersion then ⟨p.name, none, none⟩ else p

/-- No part holds a separator that would end it. A version may hold any. -/
structure Apart (p : Parts) : Prop where
  nameDot : '.' ∉ p.name.toList
  nameSlash : '/' ∉ p.name.toList
  groupSlash : ∀ group, p.group = some group → '/' ∉ group.toList

/-! ## Texts made of parts -/

variable (p : Parts)

theorem text_eq_name_append :
    p.text = p.name ++ (p.group.elim "" ("." ++ ·) ++ p.version.elim "" ("/" ++ ·)) := by
  rw [text, head, String.append_assoc]

theorem head_eq_name (h : p.group = none) : p.head = p.name := by
  rw [head, h, Option.elim_none, String.append_empty]

theorem head_eq_group_append {group : String} (h : p.group = some group) :
    p.head = p.name ++ "." ++ group := by
  rw [head, h, Option.elim_some, String.append_assoc]

theorem text_eq_head (h : p.version = none) : p.text = p.head := by
  rw [text, h, Option.elim_none, String.append_empty]

theorem text_eq_version_append {version : String} (h : p.version = some version) :
    p.text = p.head ++ "/" ++ version := by
  rw [text, h, Option.elim_some, String.append_assoc]

theorem text_eq_name (hGroup : p.group = none) (hVersion : p.version = none) :
    p.text = p.name := by
  rw [p.text_eq_head hVersion, p.head_eq_name hGroup]

theorem length_name_dot : (p.name ++ ".").length = p.name.length + 1 :=
  String.length_append ..

theorem length_head {group : String} (h : p.group = some group) :
    p.head.length = p.name.length + 1 + group.length := by
  rw [p.head_eq_group_append h, String.length_append, length_name_dot]

theorem drop_head {group : String} (h : p.group = some group) :
    p.head.toList.drop (p.name.length + 1) = group.toList := by
  rw [p.head_eq_group_append h, ← p.length_name_dot, drop_toList_append]

theorem take_text {version : String} (h : p.version = some version) :
    p.text.toList.take p.head.length = p.head.toList := by
  rw [p.text_eq_version_append h, String.append_assoc, take_toList_append]

theorem drop_text {version : String} (h : p.version = some version) :
    p.text.toList.drop (p.head.length + 1) = version.toList := by
  have hSlash : (p.head ++ "/").length = p.head.length + 1 := String.length_append ..
  rw [p.text_eq_version_append h, ← hSlash, drop_toList_append]

/-! ## Parts of the reference -/

/-- The first separator ends the name. -/
theorem or_toRef : p.toRef.groupAt.or p.toRef.versionAt =
    if p.group = none ∧ p.version = none then none else some p.name.length := by
  obtain ⟨name, _ | group, _ | version⟩ := p <;> simp [toRef, head]

theorem name_toRef : p.toRef.name = p.name := by
  unfold KindRef.name
  rw [or_toRef]
  by_cases hNone : p.group = none ∧ p.version = none
  · rw [if_pos hNone]
    exact p.text_eq_name hNone.1 hNone.2
  · rw [if_neg hNone]
    change String.ofList (p.text.toList.take p.name.length) = p.name
    rw [text_eq_name_append, take_toList_append, String.ofList_toList]

theorem group_toRef : p.toRef.group = p.group.getD "" := by
  cases hGroup : p.group with
  | none => simp [KindRef.group, toRef, hGroup]
  | some group =>
    cases hVersion : p.version with
    | none =>
      simp [KindRef.group, toRef, hGroup, hVersion, text_eq_head, p.drop_head hGroup]
    | some version =>
      have hLength := p.length_head hGroup
      simp only [KindRef.group, toRef, hGroup, hVersion, Option.map_some, p.take_text hVersion,
        p.drop_head hGroup, String.ofList_toList, Option.getD_some]
      split
      · rfl
      · exact (String.length_eq_zero_iff.mp (by omega)).symm

theorem version_toRef : p.toRef.version = p.version.getD "" := by
  cases hVersion : p.version with
  | none => simp [KindRef.version, toRef, hVersion]
  | some version => simp [KindRef.version, toRef, hVersion, p.drop_text hVersion]

theorem toKind_toRef : p.toRef.toKind = ⟨p.group.getD "", p.version.getD "", p.name⟩ := by
  rw [toKind, group_toRef, version_toRef, name_toRef]

theorem elided_of_core (h : p.group = some "" ∧ p.version = some coreVersion) :
    p.elided = ⟨p.name, none, none⟩ :=
  if_pos h

theorem elided_of_not_core (h : ¬(p.group = some "" ∧ p.version = some coreVersion)) :
    p.elided = p :=
  if_neg h

theorem elided_elided : p.elided.elided = p.elided := by
  by_cases hCore : p.group = some "" ∧ p.version = some coreVersion
  · rw [p.elided_of_core hCore]
    rfl
  · rw [p.elided_of_not_core hCore, p.elided_of_not_core hCore]

theorem Apart.elided {p : Parts} (h : p.Apart) : p.elided.Apart := by
  unfold Parts.elided
  split
  · exact ⟨h.nameDot, h.nameSlash, by simp⟩
  · exact h

end KindRef.Parts

namespace KindRef

/-! ## Finding separators -/

theorem find_append {c : Char} {before : List Char} (h : c ∉ before) (after : List Char) :
    find c (before ++ c :: after) = some before.length := by
  induction before with
  | nil => simp [find]
  | cons d rest ih =>
    rw [List.mem_cons, not_or] at h
    rw [List.cons_append, find, if_neg (Ne.symm h.1), ih h.2]
    rfl

theorem find_eq_none_iff {c : Char} {text : List Char} : find c text = none ↔ c ∉ text := by
  induction text with
  | nil => simp [find]
  | cons d rest ih =>
    rw [find, List.mem_cons, not_or]
    by_cases hFirst : d = c
    · simp [hFirst]
    · simp [hFirst, Ne.symm hFirst, ih]

/-- What is found in the front of a text is found in the text, and nothing else is found there. -/
theorem filter_find_append (c : Char) (before after : List Char) :
    (find c (before ++ after)).filter (· < before.length) = find c before := by
  induction before with
  | nil => cases find c ([] ++ after) <;> simp [find]
  | cons d rest ih =>
    rw [List.cons_append, find, find]
    split
    · simp
    · rw [← ih, Option.filter_map]
      congr 2
      funext place
      simp

namespace Parts

/-- A text without a slash is a name, or a name and a group. -/
theorem exists_head {front : List Char} (h : '/' ∉ front) (version : Option String) :
    ∃ p : Parts, p.Apart ∧ p.version = version ∧ p.head.toList = front := by
  by_cases hDot : '.' ∈ front
  · obtain ⟨name, group, rfl, hName⟩ := List.eq_append_cons_of_mem hDot
    obtain ⟨hNameSlash, hGroupSlash⟩ : '/' ∉ name ∧ '/' ∉ group := by simpa using h
    exact ⟨⟨String.ofList name, some (String.ofList group), version⟩,
      ⟨by simpa, by simpa, by simpa⟩, rfl, by simp [head]⟩
  · exact ⟨⟨String.ofList front, none, version⟩, ⟨by simpa, by simpa, by simp⟩, rfl, by simp [head]⟩

/-- Every text is made of parts: it is cut at its first slash, and the front at its first dot. -/
theorem exists_text (text : String) : ∃ p : Parts, p.Apart ∧ p.text = text := by
  by_cases hSlash : '/' ∈ text.toList
  · obtain ⟨front, version, hText, hFront⟩ := List.eq_append_cons_of_mem hSlash
    obtain ⟨p, hApart, hVersion, hHead⟩ := exists_head hFront (some (String.ofList version))
    refine ⟨p, hApart, ?_⟩
    rw [← String.toList_inj, hText, p.text_eq_version_append hVersion, ← hHead]
    simp
  · obtain ⟨p, hApart, hVersion, hHead⟩ := exists_head hSlash none
    refine ⟨p, hApart, ?_⟩
    rw [p.text_eq_head hVersion, ← String.toList_inj, hHead]

namespace Apart

variable {p : Parts} (h : p.Apart)

include h

theorem notMem_head : '/' ∉ p.head.toList := by
  cases hGroup : p.group with
  | none =>
    rw [p.head_eq_name hGroup]
    exact h.nameSlash
  | some group =>
    rw [p.head_eq_group_append hGroup]
    simpa using ⟨h.nameSlash, h.groupSlash group hGroup⟩

theorem find_head : find '.' p.head.toList = p.toRef.groupAt := by
  unfold toRef
  cases hGroup : p.group with
  | none =>
    rw [p.head_eq_name hGroup]
    exact find_eq_none_iff.mpr h.nameDot
  | some group =>
    have hHead : p.head.toList = p.name.toList ++ '.' :: group.toList := by
      simp [p.head_eq_group_append hGroup]
    rw [hHead, find_append h.nameDot, String.length_toList]
    rfl

theorem separators_text :
    separators p.text.toList = (p.toRef.groupAt, p.toRef.versionAt) := by
  unfold separators
  rw [← h.find_head]
  unfold toRef
  cases hVersion : p.version with
  | none =>
    rw [p.text_eq_head hVersion, find_eq_none_iff.mpr h.notMem_head]
    cases find '.' p.head.toList <;> rfl
  | some version =>
    have hText : p.text.toList = p.head.toList ++ '/' :: version.toList := by
      simp [p.text_eq_version_append hVersion]
    have hFront := filter_find_append '.' p.head.toList ('/' :: version.toList)
    rw [hText, find_append h.notMem_head, Option.map_some, ← String.length_toList]
    exact congrArg (·, some p.head.toList.length) hFront

theorem ofText_text : ofText p.text = p.elided.toRef := by
  unfold ofText
  simp only [h.separators_text]
  cases hGroup : p.group with
  | none =>
    rw [p.elided_of_not_core (by simp [hGroup])]
    simp [toRef, hGroup]
  | some group =>
    cases hVersion : p.version with
    | none =>
      rw [p.elided_of_not_core (by simp [hVersion])]
      simp [toRef, hGroup, hVersion]
    | some version =>
      have hEmpty : p.name.length + 1 = p.head.length ↔ group = "" := by
        rw [p.length_head hGroup, ← String.length_eq_zero_iff]
        omega
      have hName : p.text.toList.take p.name.length = p.name.toList := by
        rw [text_eq_name_append, take_toList_append]
      simp only [toRef, hGroup, hVersion, Option.map_some, hEmpty, p.drop_text hVersion,
        String.toList_inj, hName, String.ofList_toList]
      split
      · rename_i hCore
        rw [p.elided_of_core (by simpa [hGroup, hVersion] using hCore)]
        simp [text, head]
      · rename_i hOther
        rw [p.elided_of_not_core (by simpa [hGroup, hVersion] using hOther)]
        simp [hGroup, hVersion]

end Apart

end Parts

/-- What comes of reading is made of parts of which nothing is left out in reading them again. -/
theorem exists_parts_of_ofText (text : String) :
    ∃ p : Parts, p.Apart ∧ p.elided = p ∧ ofText text = p.toRef := by
  obtain ⟨p, hApart, rfl⟩ := Parts.exists_text text
  exact ⟨p.elided, hApart.elided, p.elided_elided, hApart.ofText_text⟩

theorem ofText_text_ofText (text : String) : ofText (ofText text).text = ofText text := by
  obtain ⟨p, hApart, hElided, hRead⟩ := exists_parts_of_ofText text
  rw [hRead]
  exact hApart.ofText_text.trans (congrArg Parts.toRef hElided)

end KindRef

end ClusterInventory
