import ClusterInventory.Discovery
import ClusterInventory.Proofs.First

/-! # What a catalog maps

A kind is mapped to the first entry of its name in one version of its group, and never to anything
that the survey did not find. A group whose discovery failed maps no kind.
-/

namespace ClusterInventory

/-! ## Groups -/

namespace ApiGroup

/-- The version that a version text stands for: an empty one stands for the preferred version. -/
def versionOf (g : ApiGroup) (version : String) : String :=
  if version = "" then g.preferredOrLatest else version

theorem exists_version_of_mem_resourcesOf (g : ApiGroup) {version : String} {m : Mapping}
    (h : m ∈ g.resourcesOf version) :
    ∃ v ∈ g.versions, v.version = version ∧ m ∈ v.mappings := by
  unfold resourcesOf at h
  cases hFound : g.versions.find? (·.version == version) with
  | none => simp [hFound] at h
  | some v =>
    have hVersion : v.version = version := by simpa using List.find?_some hFound
    exact ⟨v, List.mem_of_find?_eq_some hFound, hVersion, by simpa [hFound] using h⟩

theorem mem_mappings_iff (g : ApiGroup) (m : Mapping) :
    m ∈ g.mappings ↔ ∃ version, m ∈ g.resourcesOf version := by
  unfold mappings
  rw [List.mem_flatMap]
  constructor
  · rintro ⟨v, _, hMapping⟩
    exact ⟨v.version, hMapping⟩
  · rintro ⟨version, hMapping⟩
    obtain ⟨v, hVersion, rfl, _⟩ := g.exists_version_of_mem_resourcesOf hMapping
    exact ⟨v, hVersion, hMapping⟩

def entries (g : ApiGroup) : List Mapping := g.versions.flatMap VersionData.mappings

theorem mem_entries_of_mem_mappings (g : ApiGroup) {m : Mapping} (h : m ∈ g.mappings) :
    m ∈ g.entries := by
  obtain ⟨version, hMapping⟩ := (g.mem_mappings_iff m).mp h
  obtain ⟨v, hVersion, _, hEntry⟩ := g.exists_version_of_mem_resourcesOf hMapping
  exact List.mem_flatMap.mpr ⟨v, hVersion, hEntry⟩

end ApiGroup

theorem ApiGroup.find?_eq_some_iff (g : ApiGroup) (version kind : String) (m : Mapping) :
    g.find? version kind = some m ↔
      IsFirst (·.resource.kind = kind) (g.resourcesOf (g.versionOf version)) m :=
  find?_eq_some_iff_isFirst (fun _ => beq_iff_eq) _ m

/-! ## Catalogs -/

namespace Catalog

variable (c : Catalog)

/-- A kind leads to an entry if its group did not fail and has the entry as the first one of the
kind's name in the version that the kind asks for. -/
def Finds (kind : Kind) (m : Mapping) : Prop :=
  Fields.get? kind.group c.failed = none ∧ ∃ g, Fields.get? kind.group c.groups = some g ∧
    IsFirst (·.resource.kind = kind.name) (g.resourcesOf (g.versionOf kind.version)) m

theorem mapper_eq_ok_iff (kind : Kind) (m : Mapping) : c.mapper kind = .ok m ↔ c.Finds kind m := by
  unfold mapper Finds
  cases hFailed : Fields.get? kind.group c.failed with
  | some error => simp
  | none =>
    simp only [true_and, ← ApiGroup.find?_eq_some_iff, ← Option.bind_eq_some_iff]
    cases (Fields.get? kind.group c.groups).bind fun g => g.find? kind.version kind.name <;> simp

theorem mapper_eq_notFound_iff (kind : Kind) (text : String) :
    c.mapper kind = .error (.notFound text) ↔
      Fields.get? kind.group c.failed = none ∧ (∀ m, ¬c.Finds kind m) ∧ text = kind.canonical := by
  simp only [← mapper_eq_ok_iff]
  unfold mapper
  cases Fields.get? kind.group c.failed with
  | some error => simp
  | none =>
    cases (Fields.get? kind.group c.groups).bind fun g => g.find? kind.version kind.name with
    | some m => simp
    | none => simp [eq_comm]

theorem mapper_eq_unavailable_iff (kind : Kind) (text : String) :
    c.mapper kind = .error (.discoveryUnavailable text) ↔
      ∃ error, Fields.get? kind.group c.failed = some error ∧
        text = "API group '" ++ groupLabel kind.group ++ "': " ++ error := by
  unfold mapper
  cases Fields.get? kind.group c.failed with
  | some error => simp [eq_comm]
  | none => cases (Fields.get? kind.group c.groups).bind fun g => g.find? kind.version kind.name <;> simp

/-- A kind leads to one entry at most. -/
theorem Finds.unique {c : Catalog} {kind : Kind} {m other : Mapping} (h : c.Finds kind m)
    (hOther : c.Finds kind other) : m = other := by
  rw [← mapper_eq_ok_iff] at h hOther
  exact Except.ok.inj (h.symm.trans hOther)

theorem Finds.kind_eq {c : Catalog} {kind : Kind} {m : Mapping} (h : c.Finds kind m) :
    m.resource.kind = kind.name := by
  obtain ⟨_, _, _, hFirst⟩ := h
  exact hFirst.holds

theorem Finds.mem_mappings {c : Catalog} {kind : Kind} {m : Mapping} (h : c.Finds kind m) :
    m ∈ c.mappings := by
  obtain ⟨_, g, hGroup, hFirst⟩ := h
  obtain ⟨left, right, hGroups, _⟩ := List.lookup_eq_some_iff.mp hGroup
  have hMember : (kind.group, g) ∈ c.groups := by rw [hGroups]; simp
  exact List.mem_flatMap.mpr ⟨_, hMember, (g.mem_mappings_iff m).mpr ⟨_, hFirst.mem⟩⟩

def entries : List Mapping := c.groups.flatMap fun e => e.2.entries

theorem mem_entries_of_mem_mappings {m : Mapping} (h : m ∈ c.mappings) : m ∈ c.entries := by
  obtain ⟨e, hGroup, hMapping⟩ := List.mem_flatMap.mp h
  exact List.mem_flatMap.mpr ⟨e, hGroup, e.2.mem_entries_of_mem_mappings hMapping⟩

end Catalog

/-! ## Kinds that can be listed -/

section ListableKinds

def addListable (kinds : List Kind) (m : Mapping) : List Kind :=
  if m.isListable ∧ m.resource.toKind ∉ kinds then kinds ++ [m.resource.toKind] else kinds

theorem mem_addListable_iff (kinds : List Kind) (m : Mapping) (kind : Kind) :
    kind ∈ addListable kinds m ↔
      kind ∈ kinds ∨ (m.isListable = true ∧ m.resource.toKind = kind) := by
  unfold addListable
  split
  · rename_i hNew
    simp [hNew.1, eq_comm]
  · rename_i hOld
    constructor
    · exact .inl
    · rintro (hKind | ⟨hListable, rfl⟩)
      · exact hKind
      · exact Classical.byContradiction fun hAbsent => hOld ⟨hListable, hAbsent⟩

theorem nodup_addListable {kinds : List Kind} (m : Mapping) (hNodup : kinds.Nodup) :
    (addListable kinds m).Nodup := by
  unfold addListable
  split
  · rename_i hNew
    rw [(List.perm_append_singleton m.resource.toKind kinds).nodup_iff, List.nodup_cons]
    exact ⟨hNew.2, hNodup⟩
  · exact hNodup

theorem mem_listableKinds_iff (mappings : List Mapping) (kind : Kind) :
    kind ∈ listableKinds mappings ↔
      ∃ m ∈ mappings, m.isListable = true ∧ m.resource.toKind = kind := by
  have hFold : ∀ kinds : List Kind, kind ∈ mappings.foldl addListable kinds ↔
      kind ∈ kinds ∨ ∃ m ∈ mappings, m.isListable = true ∧ m.resource.toKind = kind := by
    induction mappings with
    | nil => simp
    | cons m rest ih =>
      intro kinds
      rw [List.foldl_cons, ih, mem_addListable_iff]
      simp only [List.mem_cons, exists_eq_or_imp, or_assoc]
  exact (hFold []).trans (by simp)

theorem nodup_listableKinds (mappings : List Mapping) : (listableKinds mappings).Nodup := by
  have hFold : ∀ kinds : List Kind, kinds.Nodup → (mappings.foldl addListable kinds).Nodup := by
    induction mappings with
    | nil => exact fun _ hNodup => hNodup
    | cons m rest ih => exact fun _ hNodup => ih _ (nodup_addListable m hNodup)
  exact hFold [] List.nodup_nil

end ListableKinds

end ClusterInventory
