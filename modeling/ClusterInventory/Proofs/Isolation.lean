import ClusterInventory.Proofs.Catalog
import ClusterInventory.Proofs.Documents
import ClusterInventory.Proofs.Schedule

/-! # What a group can do to the others

Two servers that differ in what they answer for one group map every kind of the other groups alike,
and fetch alike what is asked for of those. They also list the same kinds of the other groups, in
the same order, up to the kinds that entries of the one group name as well: an entry may stand for a
kind of another group, and a kind that is named twice is listed at its first place.
-/

namespace ClusterInventory

/-! ## Parts of the list of kinds -/

theorem filter_addListable (p : Kind → Bool) (kinds : List Kind) (m : Mapping) :
    (addListable kinds m).filter p =
      if m.isListable && p m.resource.toKind then addListable (kinds.filter p) m
      else kinds.filter p := by
  unfold addListable
  cases hListable : m.isListable with
  | false => simp
  | true =>
    cases hPart : p m.resource.toKind with
    | false => split <;> simp [hPart]
    | true =>
      simp only [true_and, Bool.and_self, if_true, List.mem_filter, hPart, and_true]
      split
      · simp [hPart]
      · rfl

/-- A part of the kinds that can be listed is what the mappings of those kinds make of it. -/
theorem filter_listableKinds (p : Kind → Bool) (mappings : List Mapping) :
    (listableKinds mappings).filter p =
      listableKinds (mappings.filter fun m => m.isListable && p m.resource.toKind) := by
  have hFold : ∀ kinds : List Kind, (mappings.foldl addListable kinds).filter p =
      (mappings.filter fun m => m.isListable && p m.resource.toKind).foldl addListable
        (kinds.filter p) := by
    induction mappings with
    | nil => exact fun _ => rfl
    | cons m rest ih =>
      intro kinds
      rw [List.foldl_cons, ih, filter_addListable, List.filter_cons]
      split
      · rw [List.foldl_cons]
      · rfl
  exact hFold []

namespace Catalog

variable (group : String)

def only (c : Catalog) : Catalog where
  groups := c.groups.filter fun e => e.1 == group
  failed := c.failed.filter fun e => e.1 == group

theorem mem_mappings_iff_beside_or_only (c : Catalog) (m : Mapping) :
    m ∈ c.mappings ↔ m ∈ (c.beside group).mappings ∨ m ∈ (c.only group).mappings := by
  simp only [mappings, beside, only, Fields.erase, List.mem_flatMap, List.mem_filter]
  constructor
  · rintro ⟨e, hGroup, hMapping⟩
    by_cases hName : e.1 = group
    · exact .inr ⟨e, ⟨hGroup, beq_iff_eq.mpr hName⟩, hMapping⟩
    · exact .inl ⟨e, ⟨hGroup, bne_iff_ne.mpr hName⟩, hMapping⟩
  · rintro (⟨e, ⟨hGroup, _⟩, hMapping⟩ | ⟨e, ⟨hGroup, _⟩, hMapping⟩)
    · exact ⟨e, hGroup, hMapping⟩
    · exact ⟨e, hGroup, hMapping⟩

theorem mem_listableKinds_iff_beside_or_only (c : Catalog) (kind : Kind) :
    kind ∈ c.listableKinds ↔
      kind ∈ (c.beside group).listableKinds ∨ kind ∈ (c.only group).listableKinds := by
  simp only [listableKinds, mem_listableKinds_iff, c.mem_mappings_iff_beside_or_only group,
    or_and_right, exists_or]

/-- Apart from the kinds that its own entries name, a group changes nothing in the list of kinds. -/
theorem filter_listableKinds_eq_beside (c : Catalog) {p : Kind → Bool}
    (h : ∀ kind ∈ (c.only group).listableKinds, p kind = false) :
    c.listableKinds.filter p = (c.beside group).listableKinds.filter p := by
  -- An entry of the group that `p` lets pass would name one of the kinds that `p` leaves out.
  have hOwn : ∀ e ∈ c.groups, e.1 = group →
      (e.2.mappings.filter fun m => m.isListable && p m.resource.toKind) = [] := by
    intro e hGroup hName
    rw [List.filter_eq_nil_iff]
    intro m hMapping hPart
    obtain ⟨hListable, hKind⟩ := Bool.and_eq_true_iff.mp hPart
    have hOnly : m ∈ (c.only group).mappings :=
      List.mem_flatMap.mpr ⟨e, List.mem_filter.mpr ⟨hGroup, beq_iff_eq.mpr hName⟩, hMapping⟩
    have hNamed := (mem_listableKinds_iff (c.only group).mappings m.resource.toKind).mpr
      ⟨m, hOnly, hListable, rfl⟩
    rw [h _ hNamed] at hKind
    cases hKind
  rw [listableKinds, listableKinds, filter_listableKinds, filter_listableKinds, mappings, mappings,
    List.filter_flatMap, List.filter_flatMap, beside]
  congr 1
  revert hOwn
  generalize c.groups = groups
  intro hOwn
  induction groups with
  | nil => rfl
  | cons e rest ih =>
    have hRest := ih fun other hOther => hOwn other (List.mem_cons_of_mem e hOther)
    by_cases hName : e.1 = group
    · rw [List.flatMap_cons, hOwn e List.mem_cons_self hName, List.nil_append, hRest, ← hName]
      exact congrArg _ (Fields.erase_cons_self e.1 e.2 rest).symm
    · rw [Fields.erase_cons_ne hName, List.flatMap_cons, List.flatMap_cons, hRest]

/-! ## Two discoveries -/

variable {names : List String} {answer other : String → Except RequestError ApiGroup}

theorem beside_ofFindings_congr (hAgree : ∀ name, name ≠ group → answer name = other name) :
    (ofFindings (names.map fun name => (name, answer name))).beside group =
      (ofFindings (names.map fun name => (name, other name))).beside group := by
  rw [beside_ofFindings, beside_ofFindings, List.filter_map, List.filter_map]
  congr 1
  refine List.map_congr_left fun name hName => ?_
  have hOther : name ≠ group := by simpa using (List.mem_filter.mp hName).2
  rw [hAgree name hOther]

structure Isolates (c other : Catalog) : Prop where
  mapper : ∀ kind : Kind, kind.group ≠ group → c.mapper kind = other.mapper kind
  kinds : (c.beside group).listableKinds = (other.beside group).listableKinds
  listed : ∀ kind ∈ (c.beside group).listableKinds,
    kind ∈ c.listableKinds ∧ kind ∈ other.listableKinds
  /-- The order is that of the lists without what entries of the one group name. -/
  order : let named := (c.only group).listableKinds ++ (other.only group).listableKinds
    c.listableKinds.filter (· ∉ named) = other.listableKinds.filter (· ∉ named)
  fetch : ∀ (kinds : List Kind) (filter : Filter) (lister : Lister),
    (∀ kind ∈ kinds, kind.group ≠ group) →
      fetchObjects c.mapper lister kinds filter = fetchObjects other.mapper lister kinds filter

theorem isolates_of_beside_eq {c other : Catalog} (h : c.beside group = other.beside group) :
    Isolates group c other := by
  have hMapper : ∀ kind : Kind, kind.group ≠ group → c.mapper kind = other.mapper kind := by
    intro kind hGroup
    rw [← mapper_beside group c hGroup, h, mapper_beside group other hGroup]
  refine ⟨hMapper, congrArg listableKinds h, ?_, ?_, ?_⟩
  · intro kind hKind
    refine ⟨(c.mem_listableKinds_iff_beside_or_only group kind).mpr (.inl hKind), ?_⟩
    rw [h] at hKind
    exact (other.mem_listableKinds_iff_beside_or_only group kind).mpr (.inl hKind)
  · intro named
    have hNamed : ∀ kind ∈ named, decide (kind ∉ named) = false := by simp
    rw [c.filter_listableKinds_eq_beside group fun kind hKind =>
        hNamed kind (List.mem_append_left _ hKind),
      other.filter_listableKinds_eq_beside group fun kind hKind =>
        hNamed kind (List.mem_append_right _ hKind), h]
  · intro kinds filter lister hKinds
    unfold fetchObjects Pass.run
    rw [Schedule.ofKinds_congr fun kind hKind _ => hMapper kind (hKinds kind hKind)]

end Catalog

/-- Where two servers announce the same groups and answer alike for all of them but one, each is
discovered, and the catalogs are alike for every other group. -/
theorem Cluster.discover_isolates {c other : Cluster} {group : String} {names : List String}
    {answer otherAnswer : String → Except RequestError ApiGroup}
    (hServes : c.server.Serves names answer) (hOther : other.server.Serves names otherAnswer)
    (hAgree : ∀ name, name ≠ group → answer name = otherAnswer name)
    (past otherPast : List String) :
    ∃ found otherFound : Catalog,
      (c.discover past).1.value = .ok found ∧
      (other.discover otherPast).1.value = .ok otherFound ∧
      Catalog.Isolates group found otherFound :=
  ⟨_, _, Cluster.discover_eq_of_serves hServes past,
    Cluster.discover_eq_of_serves hOther otherPast,
    Catalog.isolates_of_beside_eq group (Catalog.beside_ofFindings_congr group hAgree)⟩

/-! ## A kind that two groups name -/

/-- The core group, if it is there, has an entry for the deployments of another group. -/
def deploymentDocument? (core : Bool) (path : String) : Option Json :=
  let entry (kind name : String) (group : List (String × Json)) : Json :=
    .object (group ++ [("kind", .string kind), ("name", .string name),
      ("verbs", .array [.string "list"])])
  let version : Json :=
    .object [("groupVersion", .string "apps/v1"), ("version", .string "v1")]
  let coreDocuments : List (String × Json) := [
    ("/api", .object [("versions", .array [.string "v1"])]),
    ("/api/v1", .object [("groupVersion", .string "v1"), ("resources", .array [
      entry "Deployment" "deployments" [("group", .string "apps")]])])]
  let documents : List (String × Json) := [
    ("/apis", .object [("groups", .array [
      .object [("name", .string "apps"), ("versions", .array [version])]])]),
    ("/apis/apps/v1", .object [("groupVersion", .string "apps/v1"), ("resources", .array [
      entry "ReplicaSet" "replicasets" [], entry "Deployment" "deployments" []])])]
  ((if core then coreDocuments else []) ++ documents).lookup path

def deployments (core : Bool) : Cluster where
  name := "test"
  server := .ofDocuments (deploymentDocument? core)

def deploymentList : ResourceList where
  groupVersion := "v1"
  resources := [⟨"deployments", "Deployment", some "apps", none, false, ["list"]⟩]

def replicaSetList : ResourceList where
  groupVersion := "apps/v1"
  resources := [⟨"replicasets", "ReplicaSet", none, none, false, ["list"]⟩,
    ⟨"deployments", "Deployment", none, none, false, ["list"]⟩]

def deploymentGroup (core : Bool) (name : String) : Except RequestError ApiGroup :=
  if name = "" then
    if core then .ok ⟨[⟨"v1", deploymentList.mappings⟩], some "v1"⟩
    else .error (.refused (Refusal.ofBody 404 ""))
  else .ok ⟨[⟨"v1", replicaSetList.mappings⟩], none⟩

theorem deployments_serve (core : Bool) :
    (deployments core).server.Serves ["apps"] (deploymentGroup core) := by
  let group : GroupEntry := ⟨"apps", none, [⟨"apps/v1", "v1"⟩]⟩
  have hRead : ∀ core, Server.read? (deploymentDocument? core) GroupEntry.listOfJson? "/apis" =
        some [group] ∧
      Server.read? (deploymentDocument? core) ResourceList.ofJson? "/apis/apps/v1" =
        some replicaSetList := by decide +kernel
  have hCore : ((deployments core).server.discoverGroup "").Yields (deploymentGroup core "") := by
    cases core with
    | false =>
      have hTarget : Uri.target? "/api".toList = some ("/api".toList, none) := by decide +kernel
      exact Server.discoverCore_yields_error
        (Server.get_ofDocuments_yields_error _ hTarget (by decide +kernel))
    | true =>
      have hVersions : ((deployments true).server.get .badPath readCoreVersions "/api").Yields
          (.ok ["v1"]) := Server.get_ofDocuments_yields _ (by decide +kernel)
      have hList : (deployments true).server.HasList "/api/v1" deploymentList :=
        Server.get_ofDocuments_yields _ (by decide +kernel)
      exact Server.discoverCore_yields_singleton hVersions hList
  exact Server.serves_singleton (g := group) (fun _ => replicaSetList)
    (Server.get_ofDocuments_yields _ (hRead core).1) hCore (by decide) (by decide) (by decide)
    (List.forall_mem_singleton.mpr (Server.get_ofDocuments_yields _ (hRead core).2))

theorem deploymentGroup_agree {name : String} (h : name ≠ "") :
    deploymentGroup true name = deploymentGroup false name := by
  rw [deploymentGroup, deploymentGroup, if_neg h, if_neg h]

theorem discover_deployments_isolates :
    (deployments true).server.Serves ["apps"] (deploymentGroup true) ∧
      (deployments false).server.Serves ["apps"] (deploymentGroup false) ∧
      (∀ name, name ≠ "" → deploymentGroup true name = deploymentGroup false name) ∧
      ∃ found otherFound : Catalog,
        ((deployments true).discover []).1.value = .ok found ∧
        ((deployments false).discover []).1.value = .ok otherFound ∧
        Catalog.Isolates "" found otherFound :=
  ⟨deployments_serve true, deployments_serve false, fun _ => deploymentGroup_agree,
    Cluster.discover_isolates (deployments_serve true) (deployments_serve false)
      (fun _ => deploymentGroup_agree) [] []⟩

/-- Both kinds are of the one group that answers in either run, and its entries name both of them.
They are listed in an order that depends on whether the core group answers. -/
theorem listableKinds_deployments_differ :
    let deployment : Kind := ⟨"apps", "v1", "Deployment"⟩
    let replicaSet : Kind := ⟨"apps", "v1", "ReplicaSet"⟩
    ∃ found otherFound : Catalog,
      (deployments true).server.Serves ["apps"] (deploymentGroup true) ∧
      (deployments false).server.Serves ["apps"] (deploymentGroup false) ∧
      (∀ name, name ≠ "" → deploymentGroup true name = deploymentGroup false name) ∧
      ((deployments true).discover []).1.value = .ok found ∧
      ((deployments false).discover []).1.value = .ok otherFound ∧
      (∀ kind ∈ [deployment, replicaSet], kind ∈ (found.beside "").listableKinds ∧
        kind ∈ (otherFound.beside "").listableKinds) ∧
      found.listableKinds = [deployment, replicaSet] ∧
      otherFound.listableKinds = [replicaSet, deployment] := by
  intro deployment replicaSet
  exact ⟨_, _, deployments_serve true, deployments_serve false, fun _ => deploymentGroup_agree,
    Cluster.discover_eq_of_serves (deployments_serve true) [],
    Cluster.discover_eq_of_serves (deployments_serve false) [],
    by decide +kernel, by decide +kernel, by decide +kernel⟩

end ClusterInventory
