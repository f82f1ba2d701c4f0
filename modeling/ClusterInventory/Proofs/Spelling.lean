import ClusterInventory.Proofs.Parts

/-! # Spellings of one kind

A kind may be spelled in several ways: the dot of an empty group and the slash of an empty version
may be written or left out. References are compared as they are spelled, so that two of them are
equal exactly if they denote the same kind and have the same separators.
-/

namespace ClusterInventory.KindRef

theorem beq_eq_true_iff (r other : KindRef) : (r == other) = true ↔ r.text = other.text := by
  change (r.text == other.text) = true ↔ r.text = other.text
  exact beq_iff_eq

/-- What is read and spelled alike is the same in all. -/
theorem ofText_eq_of_text_eq {a b : String} (h : (ofText a).text = (ofText b).text) :
    ofText a = ofText b := by
  rw [← ofText_text_ofText a, h, ofText_text_ofText]

namespace Parts

theorem eq_of_getD_eq {part other : Option String} (hText : part.getD "" = other.getD "")
    (hSome : part.isSome = other.isSome) : part = other := by
  cases part with
  | none =>
    cases other with
    | none => rfl
    | some => cases hSome
  | some =>
    cases other with
    | none => cases hSome
    | some => exact congrArg some hText

/-- The kind and the separators make out the parts. -/
theorem eq_of_toKind_eq {p q : Parts} (hKind : p.toRef.toKind = q.toRef.toKind)
    (hGroup : p.toRef.groupAt.isSome = q.toRef.groupAt.isSome)
    (hVersion : p.toRef.versionAt.isSome = q.toRef.versionAt.isSome) : p = q := by
  rw [toKind_toRef, toKind_toRef, Kind.mk.injEq] at hKind
  obtain ⟨hGroupText, hVersionText, hName⟩ := hKind
  simp only [toRef, Option.isSome_map] at hGroup hVersion
  obtain ⟨name, group, version⟩ := p
  obtain ⟨otherName, otherGroup, otherVersion⟩ := q
  rw [mk.injEq]
  exact ⟨hName, eq_of_getD_eq hGroupText hGroup, eq_of_getD_eq hVersionText hVersion⟩

end Parts

theorem beq_ofText_iff (a b : String) : (ofText a == ofText b) = true ↔
    (ofText a).toKind = (ofText b).toKind ∧
      (ofText a).groupAt.isSome = (ofText b).groupAt.isSome ∧
      (ofText a).versionAt.isSome = (ofText b).versionAt.isSome := by
  rw [beq_eq_true_iff]
  constructor
  · intro hText
    rw [ofText_eq_of_text_eq hText]
    exact ⟨rfl, rfl, rfl⟩
  · rintro ⟨hKind, hGroup, hVersion⟩
    obtain ⟨p, -, -, hRead⟩ := exists_parts_of_ofText a
    obtain ⟨q, -, -, hOther⟩ := exists_parts_of_ofText b
    rw [hRead, hOther] at hKind hGroup hVersion ⊢
    rw [Parts.eq_of_toKind_eq hKind hGroup hVersion]

/-! ## The dot of an empty group -/

section Names

variable {name : String} (hDot : '.' ∉ name.toList) (hSlash : '/' ∉ name.toList)

include hDot hSlash

theorem ofText_name : ofText name = (Parts.mk name none none).toRef := by
  have hApart : (Parts.mk name none none).Apart := ⟨hDot, hSlash, nofun⟩
  have hText := hApart.ofText_text
  rwa [Parts.text_eq_name _ rfl rfl, Parts.elided_of_not_core _ (by simp)] at hText

theorem ofText_slash (version : String) :
    ofText (name ++ "/" ++ version) = (Parts.mk name none (some version)).toRef := by
  have hApart : (Parts.mk name none (some version)).Apart := ⟨hDot, hSlash, nofun⟩
  have hText := hApart.ofText_text
  rwa [Parts.text_eq_version_append _ rfl, Parts.head_eq_name _ rfl,
    Parts.elided_of_not_core _ (by simp)] at hText

theorem ofText_dot_slash (version : String) : ofText (name ++ "./" ++ version) =
    (Parts.mk name (some "") (some version)).elided.toRef := by
  have hApart : (Parts.mk name (some "") (some version)).Apart :=
    ⟨hDot, hSlash, fun _ hGroup => Option.some.inj hGroup ▸ List.not_mem_nil⟩
  have hText : (Parts.mk name (some "") (some version)).text = name ++ "./" ++ version := by
    rw [Parts.text_eq_version_append _ rfl, Parts.head_eq_group_append _ rfl, String.append_empty,
      @String.append_assoc name]
    rfl
  rw [← hText, hApart.ofText_text]

/-- With the version of the core group the dot changes what is denoted; with any other it does not,
and yet the references differ. -/
theorem ofText_slash_apart (version : String) :
    (ofText (name ++ "/" ++ version) == ofText (name ++ "./" ++ version)) = false ∧
      ((ofText (name ++ "/" ++ version)).toKind = (ofText (name ++ "./" ++ version)).toKind ↔
        version ≠ coreVersion) := by
  rw [← Bool.not_eq_true, beq_ofText_iff, ofText_slash hDot hSlash, ofText_dot_slash hDot hSlash]
  by_cases hCore : version = coreVersion
  · subst hCore
    rw [Parts.elided_of_core _ ⟨rfl, rfl⟩, Parts.toKind_toRef, Parts.toKind_toRef]
    refine ⟨?_, ?_⟩
    · rintro ⟨-, -, hVersion⟩
      cases hVersion
    · simp [coreVersion]
  · rw [Parts.elided_of_not_core _ (by simpa using hCore), Parts.toKind_toRef, Parts.toKind_toRef]
    refine ⟨?_, iff_of_true rfl hCore⟩
    rintro ⟨-, hGroup, -⟩
    cases hGroup

theorem beq_ofText_core : (ofText (name ++ "./" ++ coreVersion) == ofText name) = true := by
  rw [beq_eq_true_iff, ofText_dot_slash hDot hSlash, ofText_name hDot hSlash,
    Parts.elided_of_core _ ⟨rfl, rfl⟩]

end Names

/-- References are equal exactly if they denote the same kind with the same separators. So the dot
of an empty group makes a reference another one, unless it goes with the version of the core group,
which is dropped together with both separators. -/
theorem beq_iff_kind_and_separators :
    (∀ a b : String, (ofText a == ofText b) = true ↔
      (ofText a).toKind = (ofText b).toKind ∧
        (ofText a).groupAt.isSome = (ofText b).groupAt.isSome ∧
        (ofText a).versionAt.isSome = (ofText b).versionAt.isSome) ∧
      ∀ name : String, '.' ∉ name.toList → '/' ∉ name.toList →
        (ofText (name ++ "./" ++ coreVersion) == ofText name) = true ∧
          ∀ version : String,
            (ofText (name ++ "/" ++ version) == ofText (name ++ "./" ++ version)) = false ∧
              ((ofText (name ++ "/" ++ version)).toKind =
                (ofText (name ++ "./" ++ version)).toKind ↔ version ≠ coreVersion) :=
  ⟨beq_ofText_iff, fun _ hDot hSlash =>
    ⟨beq_ofText_core hDot hSlash, ofText_slash_apart hDot hSlash⟩⟩

theorem beq_iff_kind_and_separators_pod :
    ('.' ∉ "Pod".toList ∧ '/' ∉ "Pod".toList) ∧
      (ofText ("Pod" ++ "./" ++ coreVersion) == ofText "Pod") = true ∧
      (ofText ("Pod" ++ "/" ++ "v2") == ofText ("Pod" ++ "./" ++ "v2")) = false ∧
      ((ofText ("Pod" ++ "/" ++ "v2")).toKind = (ofText ("Pod" ++ "./" ++ "v2")).toKind ↔
        "v2" ≠ coreVersion) := by
  have hDot : '.' ∉ "Pod".toList := by decide
  have hSlash : '/' ∉ "Pod".toList := by decide
  obtain ⟨hCore, hVersions⟩ := beq_iff_kind_and_separators.2 "Pod" hDot hSlash
  exact ⟨⟨hDot, hSlash⟩, hCore, hVersions "v2"⟩

/-- Two references may denote the same kind and yet differ. -/
theorem spellings_podV2_differ :
    ¬∀ a b : String, (ofText a == ofText b) = true ↔ (ofText a).toKind = (ofText b).toKind := by
  intro hAll
  have hEqual := (hAll "Pod/v2" "Pod./v2").mpr (by decide +kernel)
  revert hEqual
  decide +kernel

end ClusterInventory.KindRef
