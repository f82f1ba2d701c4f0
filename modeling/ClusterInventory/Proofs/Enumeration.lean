import ClusterInventory.Proofs.Catalog
import ClusterInventory.Proofs.Survey
import Mathlib.Data.List.Induction

/-! # The order of the kinds that can be listed

The kinds that can be listed are those of the entries that can, each once and in the order of the
first such entry; an entry that cannot be listed keeps no place for its kind. A catalog has its
entries in the order of the names of the groups, the core group first, and within a group in the
order of its versions and of what is served under each. Of two equal versions the first one counts.
-/

namespace ClusterInventory

def Mapping.Lists (m : Mapping) (kind : Kind) : Prop :=
  m.isListable = true ∧ m.resource.toKind = kind

/-! ## Orders of kinds -/

section Enumerates

variable {P : Type} (stands : P → Mapping → Prop) (before : P → P → Prop)

/-- Some entry that lists a kind stands before every entry that lists the later one. -/
def Leads (kind later : Kind) : Prop :=
  ∃ p m, stands p m ∧ m.Lists kind ∧ ∀ q other, stands q other → other.Lists later → before p q

structure Enumerates (kinds : List Kind) : Prop where
  nodup : kinds.Nodup
  mem : ∀ kind, kind ∈ kinds ↔ ∃ p m, stands p m ∧ m.Lists kind
  order : kinds.Pairwise (Leads stands before)

end Enumerates

theorem listableKinds_append_singleton (mappings : List Mapping) (m : Mapping) :
    listableKinds (mappings ++ [m]) = addListable (listableKinds mappings) m :=
  List.foldl_append

def StandsAt (mappings : List Mapping) (i : Nat) (m : Mapping) : Prop := mappings[i]? = some m

theorem mem_listableKinds_iff_standsAt (mappings : List Mapping) (kind : Kind) :
    kind ∈ listableKinds mappings ↔ ∃ i m, StandsAt mappings i m ∧ m.Lists kind := by
  rw [mem_listableKinds_iff]
  simp only [List.mem_iff_getElem?, StandsAt]
  constructor
  · rintro ⟨m, ⟨i, hPlace⟩, hLists⟩
    exact ⟨i, m, hPlace, hLists⟩
  · rintro ⟨i, m, hPlace, hLists⟩
    exact ⟨m, ⟨i, hPlace⟩, hLists⟩

abbrev LeadsIn (mappings : List Mapping) : Kind → Kind → Prop :=
  Leads (StandsAt mappings) Nat.lt

/-- What leads goes on to lead when an entry is added behind all others. -/
theorem LeadsIn.append_singleton {mappings : List Mapping} {kind later : Kind}
    (h : LeadsIn mappings kind later) (last : Mapping) :
    LeadsIn (mappings ++ [last]) kind later := by
  obtain ⟨i, m, hPlace, hLists, hBefore⟩ := h
  have hInside : i < mappings.length := (List.getElem?_eq_some_iff.mp hPlace).1
  refine ⟨i, m, (List.getElem?_append_left hInside).trans hPlace, hLists, ?_⟩
  intro j other hOther hLater
  by_cases hOld : j < mappings.length
  · exact hBefore j other ((List.getElem?_append_left hOld).symm.trans hOther) hLater
  · exact Nat.lt_of_lt_of_le hInside (Nat.le_of_not_lt hOld)

/-- A kind that can be listed leads any kind that cannot. -/
theorem leadsIn_of_notMem {mappings : List Mapping} {kind later : Kind}
    (hKind : kind ∈ listableKinds mappings) (hLater : later ∉ listableKinds mappings) :
    LeadsIn mappings kind later := by
  obtain ⟨i, m, hPlace, hLists⟩ := (mem_listableKinds_iff_standsAt mappings kind).mp hKind
  refine ⟨i, m, hPlace, hLists, fun j other hOther hLists => ?_⟩
  exact absurd ((mem_listableKinds_iff_standsAt mappings later).mpr ⟨j, other, hOther, hLists⟩)
    hLater

theorem pairwise_listableKinds (mappings : List Mapping) :
    (listableKinds mappings).Pairwise (LeadsIn mappings) := by
  induction mappings using List.reverseRecOn with
  | nil => exact List.Pairwise.nil
  | append_singleton mappings last ih =>
    have hOld := ih.imp fun hLeads => LeadsIn.append_singleton hLeads last
    rw [listableKinds_append_singleton, addListable]
    split
    · rename_i hNew
      refine List.pairwise_append.mpr ⟨hOld, List.pairwise_singleton _ _, ?_⟩
      intro kind hKind later hLater
      obtain rfl := List.mem_singleton.mp hLater
      exact (leadsIn_of_notMem hKind hNew.2).append_singleton last
    · exact hOld

/-- Where the entries of a list have positions in ascending order, the kinds are in the order of
the positions. -/
theorem enumerates_of_positions {P : Type} {stands : P → Mapping → Prop} {before : P → P → Prop}
    {placed : List (P × Mapping)} (hStands : ∀ p m, stands p m ↔ (p, m) ∈ placed)
    (hOrder : placed.Pairwise fun e other => before e.1 other.1) :
    Enumerates stands before (listableKinds (placed.map Prod.snd)) where
  nodup := nodup_listableKinds _
  mem kind := by
    rw [mem_listableKinds_iff]
    simp only [List.mem_map, Prod.exists, hStands]
    constructor
    · rintro ⟨m, ⟨p, _, hPlaced, rfl⟩, hLists⟩
      exact ⟨p, _, hPlaced, hLists⟩
    · rintro ⟨p, m, hPlaced, hLists⟩
      exact ⟨m, ⟨p, m, hPlaced, rfl⟩, hLists⟩
  order := by
    refine (pairwise_listableKinds _).imp fun {kind later} ⟨i, m, hPlace, hLists, hBefore⟩ => ?_
    obtain ⟨⟨p, _⟩, hPlaced, rfl⟩ := Option.map_eq_some_iff.mp (List.getElem?_map.symm.trans hPlace)
    obtain ⟨hInside, hFound⟩ := List.getElem?_eq_some_iff.mp hPlaced
    refine ⟨p, _, (hStands _ _).mpr (List.mem_of_getElem? hPlaced), hLists, ?_⟩
    intro q other hOther hLater
    obtain ⟨j, hOther⟩ := List.mem_iff_getElem?.mp ((hStands q other).mp hOther)
    obtain ⟨hLast, hLaterFound⟩ := List.getElem?_eq_some_iff.mp hOther
    have hOrdered := hBefore j other (List.getElem?_map.trans (congrArg _ hOther)) hLater
    have hPair := List.pairwise_iff_getElem.mp hOrder i j hInside hLast hOrdered
    rwa [hFound, hLaterFound] at hPair

theorem pairwise_zipIdx {α : Type} (l : List α) :
    l.zipIdx.Pairwise fun e other => e.2 < other.2 := by
  refine List.pairwise_iff_getElem.mpr fun i j _ _ hBefore => ?_
  simpa using hBefore

theorem enumerates_listableKinds (mappings : List Mapping) :
    Enumerates (StandsAt mappings) Nat.lt (listableKinds mappings) where
  nodup := nodup_listableKinds mappings
  mem := mem_listableKinds_iff_standsAt mappings
  order := pairwise_listableKinds mappings

/-! ## Orders of a catalog -/

theorem ApiGroup.getElem?_resourcesOf_eq_some_iff (g : ApiGroup) (version : String) (i : Nat)
    (m : Mapping) : (g.resourcesOf version)[i]? = some m ↔
      ∃ data, IsFirst (fun v : VersionData => v.version = version) g.versions data ∧
        data.mappings[i]? = some m := by
  have hTest : ∀ v : VersionData, (v.version == version) = true ↔ v.version = version :=
    fun _ => beq_iff_eq
  unfold resourcesOf
  simp only [← find?_eq_some_iff_isFirst hTest]
  cases g.versions.find? fun v => v.version == version with
  | none => simp
  | some data => simp

namespace Catalog

structure Position where
  group : String
  version : Nat
  entry : Nat

def Position.Before (p q : Position) : Prop :=
  p.group < q.group ∨ p.group = q.group ∧
    (p.version < q.version ∨ p.version = q.version ∧ p.entry < q.entry)

/-- A discovered group serves the entry at this position. A version that is there twice serves the
same both times, which is what its first data hold. -/
def Stands (c : Catalog) (p : Position) (m : Mapping) : Prop :=
  ∃ g v data, Fields.get? p.group c.groups = some g ∧ g.versions[p.version]? = some v ∧
    IsFirst (fun other : VersionData => other.version = v.version) g.versions data ∧
    data.mappings[p.entry]? = some m

def placedUnder (name : String) (g : ApiGroup) (v : VersionData × Nat) :
    List (Position × Mapping) :=
  (g.resourcesOf v.1.version).zipIdx.map fun m => (⟨name, v.2, m.2⟩, m.1)

def placed (c : Catalog) : List (Position × Mapping) :=
  c.groups.flatMap fun e => e.2.versions.zipIdx.flatMap (placedUnder e.1 e.2)

theorem map_snd_placed (c : Catalog) : c.placed.map Prod.snd = c.mappings := by
  have hUnder : ∀ (name : String) (g : ApiGroup) (v : VersionData × Nat),
      (placedUnder name g v).map Prod.snd = g.resourcesOf v.1.version := by
    intro name g v
    simp only [placedUnder, List.map_map, Function.comp_def]
    exact List.zipIdx_map_fst 0 _
  have hGroup : ∀ g : ApiGroup, g.versions.zipIdx.flatMap (fun v => g.resourcesOf v.1.version) =
      g.mappings := by
    intro g
    rw [ApiGroup.mappings, ← List.zipIdx_map_fst 0 g.versions, List.flatMap_map,
      List.zipIdx_map_fst]
  simp only [placed, mappings, List.map_flatMap, hUnder, hGroup]

theorem stands_iff_mem_placed {c : Catalog} (h : c.Sorted) (p : Position) (m : Mapping) :
    c.Stands p m ↔ (p, m) ∈ c.placed := by
  obtain ⟨group, version, entry⟩ := p
  simp only [Stands, placed, placedUnder, List.mem_flatMap, List.mem_map, Prod.exists,
    Prod.mk.injEq, Position.mk.injEq, List.mk_mem_zipIdx_iff_getElem?,
    ApiGroup.getElem?_resourcesOf_eq_some_iff, ← h.groups.mem_iff]
  constructor
  · rintro ⟨g, v, data, hGroup, hVersion, hFirst, hEntry⟩
    exact ⟨group, g, hGroup, v, version, hVersion, m, entry, ⟨data, hFirst, hEntry⟩,
      ⟨rfl, rfl, rfl⟩, rfl⟩
  · rintro ⟨_, g, hGroup, v, _, hVersion, _, _, ⟨data, hFirst, hEntry⟩, ⟨rfl, rfl, rfl⟩, rfl⟩
    exact ⟨g, v, data, hGroup, hVersion, hFirst, hEntry⟩

theorem pairwise_placed {c : Catalog} (h : c.Sorted) :
    c.placed.Pairwise fun e other => e.1.Before other.1 := by
  refine List.pairwise_flatMap.mpr ⟨fun e _ => List.pairwise_flatMap.mpr ⟨fun v _ => ?_, ?_⟩, ?_⟩
  · refine List.pairwise_map.mpr ((pairwise_zipIdx _).imp fun hEntry => ?_)
    exact .inr ⟨rfl, .inr ⟨rfl, hEntry⟩⟩
  · refine (pairwise_zipIdx _).imp fun {v later} hVersion x hx y hy => ?_
    obtain ⟨_, _, rfl⟩ := List.mem_map.mp hx
    obtain ⟨_, _, rfl⟩ := List.mem_map.mp hy
    exact .inr ⟨rfl, .inl hVersion⟩
  · refine h.groups.imp fun {e later} hName x hx y hy => ?_
    obtain ⟨_, _, hx⟩ := List.mem_flatMap.mp hx
    obtain ⟨_, _, hy⟩ := List.mem_flatMap.mp hy
    obtain ⟨_, _, rfl⟩ := List.mem_map.mp hx
    obtain ⟨_, _, rfl⟩ := List.mem_map.mp hy
    exact .inl hName

theorem Sorted.enumerates {c : Catalog} (h : c.Sorted) :
    Enumerates c.Stands Position.Before c.listableKinds := by
  rw [listableKinds, ← map_snd_placed]
  exact enumerates_of_positions (stands_iff_mem_placed h) (pairwise_placed h)

/-- No name is below that of the core group. -/
theorem Sorted.head?_groups {c : Catalog} (h : c.Sorted) {g : ApiGroup}
    (hCore : Fields.get? "" c.groups = some g) : c.groups.head? = some ("", g) := by
  obtain ⟨before, after, hGroups⟩ := List.append_of_mem ((h.groups.mem_iff "" g).mpr hCore)
  have hSorted := h.groups
  rw [hGroups] at hSorted ⊢
  cases before with
  | nil => rfl
  | cons e rest =>
    have hBelow := (List.pairwise_append.mp hSorted).2.2 e List.mem_cons_self _ List.mem_cons_self
    exact absurd (String.lt_iff.mp hBelow) (List.not_lt_nil _)

end Catalog

/-- The kinds that can be listed are enumerated in the order of the entries. The entries of a
catalog are those of the groups that were discovered, by their names and the core group first, and
within a group in the order that the group keeps them in. -/
theorem listableKinds_enumerates :
    (∀ mappings, Enumerates (StandsAt mappings) Nat.lt (listableKinds mappings)) ∧
      ∀ findings, let c := Catalog.ofFindings findings
        (c.groups.map Prod.fst).Pairwise (· < ·) ∧
          (∀ name g, (name, g) ∈ c.groups ↔ Fields.IsLast (Catalog.discovered findings) name g) ∧
          (∀ g, Fields.get? "" c.groups = some g → c.groups.head? = some ("", g)) ∧
          Enumerates c.Stands Catalog.Position.Before c.listableKinds := by
  refine ⟨enumerates_listableKinds, fun findings => ?_⟩
  have hSorted := Catalog.sorted_ofFindings findings
  refine ⟨List.pairwise_map.mpr hSorted.groups, fun name g => ?_, fun g => hSorted.head?_groups,
    hSorted.enumerates⟩
  rw [hSorted.groups.mem_iff, Catalog.get?_groups_ofFindings_eq_some_iff]

end ClusterInventory
