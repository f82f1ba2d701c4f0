import ClusterInventory.Proofs.Parts

/-! # What references denote

A reference that is written for a kind denotes that kind again, as long as no part of the kind could
be taken for a separator. Only the version of the core group is lost, which is left out in writing.
Every reference denotes such a kind, and two of them are spelled alike only if they differ in
nothing but that version.
-/

namespace ClusterInventory

/-- A kind whose name has no separator in it, and whose group has none that could end it. A version
may be any text, since nothing follows it. -/
structure Kind.Plain (kind : Kind) : Prop where
  nameDot : '.' ∉ kind.name.toList
  nameSlash : '/' ∉ kind.name.toList
  groupSlash : '/' ∉ kind.group.toList

def Kind.elided (kind : Kind) : Kind :=
  if kind.group = "" ∧ kind.version = coreVersion then { kind with version := "" } else kind

namespace KindRef

/-! ## Writing -/

namespace Parts

def ofKind (kind : Kind) : Parts :=
  if kind.group = "" ∧ (kind.version = "" ∨ kind.version = coreVersion) then
    ⟨kind.name, none, none⟩
  else if kind.version = "" then ⟨kind.name, some kind.group, none⟩
  else ⟨kind.name, some kind.group, some kind.version⟩

theorem ofText_text_ofKind (kind : Kind) : ofText (ofKind kind).text = KindRef.ofKind kind := by
  unfold ofKind KindRef.ofKind ofParts
  split
  · rw [text_eq_name _ rfl rfl]
  · split
    · rw [text_eq_head _ rfl, head_eq_group_append _ rfl]
    · rw [text_eq_version_append _ rfl, head_eq_group_append _ rfl]

theorem elided_ofKind (kind : Kind) : (ofKind kind).elided = ofKind kind := by
  unfold ofKind
  split
  · exact elided_of_not_core _ (by simp)
  · rename_i hOther
    split
    · exact elided_of_not_core _ (by simp)
    · refine elided_of_not_core _ fun hCore => hOther ⟨?_, .inr ?_⟩
      · exact Option.some.inj hCore.1
      · exact Option.some.inj hCore.2

theorem toKind_toRef_ofKind (kind : Kind) : (ofKind kind).toRef.toKind = kind.elided := by
  rw [toKind_toRef]
  unfold ofKind
  split
  · rename_i hCore
    obtain ⟨group, version, name⟩ := kind
    obtain ⟨rfl, rfl | rfl⟩ := hCore
    · rfl
    · rfl
  · rename_i hOther
    rw [show kind.elided = kind from if_neg fun hCore => hOther ⟨hCore.1, .inr hCore.2⟩]
    split
    · rename_i hVersion
      rw [← hVersion]
      rfl
    · rfl

theorem Apart.ofKind {kind : Kind} (h : kind.Plain) : (ofKind kind).Apart := by
  unfold Parts.ofKind
  split
  · exact ⟨h.nameDot, h.nameSlash, by simp⟩
  · split
    · exact ⟨h.nameDot, h.nameSlash, by simpa using h.groupSlash⟩
    · exact ⟨h.nameDot, h.nameSlash, by simpa using h.groupSlash⟩

theorem Apart.plain {p : Parts} (h : p.Apart) : p.toRef.toKind.Plain := by
  rw [toKind_toRef]
  refine ⟨h.nameDot, h.nameSlash, ?_⟩
  cases hGroup : p.group with
  | none => exact List.not_mem_nil
  | some group => exact h.groupSlash group hGroup

end Parts

theorem toKind_ofKind {kind : Kind} (h : kind.Plain) : (ofKind kind).toKind = kind.elided := by
  rw [← Parts.ofText_text_ofKind, (Parts.Apart.ofKind h).ofText_text, Parts.elided_ofKind,
    Parts.toKind_toRef_ofKind]

/-- Whatever a text is, the kind that it denotes can be spelled. -/
theorem plain_toKind_ofText (text : String) : (ofText text).toKind.Plain := by
  obtain ⟨p, hApart, -, hRead⟩ := exists_parts_of_ofText text
  rw [hRead]
  exact hApart.plain

end KindRef

/-! ## Writing and reading -/

namespace Kind

variable {kind : Kind}

theorem toKind_ofText_canonical (h : kind.Plain) :
    (KindRef.ofText kind.canonical).toKind = kind.elided := by
  have hReread : KindRef.ofText kind.canonical = KindRef.ofKind kind := by
    rw [canonical, ← KindRef.Parts.ofText_text_ofKind, KindRef.ofText_text_ofText]
  rw [hReread, KindRef.toKind_ofKind h]

theorem ofKind_elided (kind : Kind) : KindRef.ofKind kind.elided = KindRef.ofKind kind := by
  unfold elided
  split
  · rename_i hCore
    obtain ⟨group, version, name⟩ := kind
    obtain ⟨rfl, rfl⟩ := hCore
    rfl
  · rfl

theorem canonical_elided (kind : Kind) : kind.elided.canonical = kind.canonical :=
  congrArg KindRef.text kind.ofKind_elided

theorem group_elided (kind : Kind) : kind.elided.group = kind.group := by
  unfold elided
  split <;> rfl

theorem name_elided (kind : Kind) : kind.elided.name = kind.name := by
  unfold elided
  split <;> rfl

end Kind

/-! ## Spellings -/

namespace KindRef

theorem text_ofKind_eq_iff {kind other : Kind} (h : kind.Plain) (hOther : other.Plain) :
    (ofKind kind).text = (ofKind other).text ↔ kind.elided = other.elided := by
  constructor
  · intro hText
    rw [← Kind.toKind_ofText_canonical h, ← Kind.toKind_ofText_canonical hOther]
    exact congrArg (fun text => (ofText text).toKind) hText
  · intro hElided
    have hCanonical := congrArg Kind.canonical hElided
    rwa [Kind.canonical_elided, Kind.canonical_elided] at hCanonical

/-- References and kinds that can be spelled belong together: a kind is read as it is written but
for the version of the core group, which is all that two kinds of one spelling may differ in; and
every text denotes a kind whose spelling stays the same when it is read and written again. -/
theorem spells_plain_kinds :
    (∀ kind : Kind, kind.Plain → (ofKind kind).toKind = kind.elided) ∧
      (∀ kind other : Kind, kind.Plain → other.Plain →
        ((ofKind kind).text = (ofKind other).text ↔ kind.elided = other.elided)) ∧
      ∀ text : String, (ofText text).toKind.Plain ∧
        let canonical := ofKind (ofText text).toKind
        ofKind canonical.toKind = canonical := by
  refine ⟨fun kind hPlain => toKind_ofKind hPlain,
    fun kind other hPlain hOther => text_ofKind_eq_iff hPlain hOther, ?_⟩
  intro text
  have hPlain := plain_toKind_ofText text
  refine ⟨hPlain, ?_⟩
  calc
    ofKind (ofKind (ofText text).toKind).toKind = ofKind (ofText text).toKind.elided := by
      rw [toKind_ofKind hPlain]
    _ = ofKind (ofText text).toKind := Kind.ofKind_elided _

/-- A slash in a version is part of it, and the version of the core group is left out. -/
theorem spells_plain_kinds_pod :
    let pod : Kind := ⟨"", "v1", "Pod"⟩
    let preferred : Kind := ⟨"", "", "Pod"⟩
    let odd : Kind := ⟨"", "v1/a.b", "Pod"⟩
    pod.Plain ∧ preferred.Plain ∧ odd.Plain ∧
      (ofKind pod).toKind = pod.elided ∧ pod.elided = preferred ∧
      (ofKind odd).toKind = odd.elided ∧ odd.elided = odd ∧ (ofKind odd).text = "Pod./v1/a.b" ∧
      ((ofKind pod).text = (ofKind preferred).text ↔ pod.elided = preferred.elided) ∧
      ((ofKind pod).text = (ofKind odd).text ↔ pod.elided = odd.elided) := by
  intro pod preferred odd
  have hPod : pod.Plain := ⟨by decide, by decide, by decide⟩
  have hPreferred : preferred.Plain := ⟨by decide, by decide, by decide⟩
  have hOdd : odd.Plain := ⟨by decide, by decide, by decide⟩
  obtain ⟨hReads, hSpells, -⟩ := spells_plain_kinds
  exact ⟨hPod, hPreferred, hOdd, hReads pod hPod, by decide, hReads odd hOdd, by decide,
    by decide +kernel, hSpells pod preferred hPod hPreferred, hSpells pod odd hPod hOdd⟩

end KindRef

end ClusterInventory
