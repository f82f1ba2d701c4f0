import ClusterInventory.Proofs.Catalog
import ClusterInventory.Proofs.Collection
import ClusterInventory.Proofs.Command

/-! # What a fetch leaves alone

The lists of the configuration and those of the command line both bind a fetch: in the list calls
that it makes and in the objects that it writes. A list call is for a collection that the discovery
has found and that can be listed.
-/

namespace ClusterInventory

/-! ## Collections -/

namespace Resource

theorem occursIn_iff (part text : List Char) : occursIn part text = true ↔ part <:+: text := by
  induction text with
  | nil => simp [occursIn]
  | cons c rest ih => simp [occursIn, ih, List.infix_cons_iff]

theorem isEnumerable_iff (plural : String) :
    isEnumerable plural = true ↔
      ¬"lists".toList <:+: plural.toList ∧ ¬"reviews".toList <:+: plural.toList ∧
        plural.toList.map Char.toLower ≠ "bindings".toList := by
  simp only [isEnumerable, Bool.not_eq_true', Bool.or_eq_false_iff, and_assoc, beq_eq_false_iff_ne,
    ← occursIn_iff, Bool.not_eq_true]

end Resource

/-! ## Mappers -/

/-- What a discovered mapper maps is in the catalog, under the name of the kind. -/
theorem Mapper.ofDiscovery_eq_ok {found : Except RequestError Catalog} {kind : Kind} {m : Mapping}
    (h : Mapper.ofDiscovery found kind = .ok m) :
    ∃ catalog, found = .ok catalog ∧ m ∈ catalog.mappings ∧ m.resource.kind = kind.name := by
  cases found with
  | error e => cases h
  | ok catalog =>
    have hFinds := (catalog.mapper_eq_ok_iff kind m).mp h
    exact ⟨catalog, rfl, hFinds.mem_mappings, hFinds.kind_eq⟩

namespace Inventory

/-! ## What is allowed -/

/-- A resource for which a fetch may make a list call, given what its discovery found. -/
structure MayList (config : Config) (arguments : FetchArguments)
    (found : Except RequestError Catalog) (r : Resource) : Prop where
  kindPermitted : Filter.Permitted
    (config.filters.selectKinds ++ arguments.filter.selectKinds)
    (config.filters.ignoreKinds ++ arguments.filter.ignoreKinds) r.kind
  noLists : ¬"lists".toList <:+: r.plural.toList
  noReviews : ¬"reviews".toList <:+: r.plural.toList
  noBindings : r.plural.toList.map Char.toLower ≠ "bindings".toList
  hasVerb : ∃ catalog, found = .ok catalog ∧ ∃ m ∈ catalog.mappings, m.resource = r ∧
    "list" ∈ m.verbs

def MayWrite (config : Config) (arguments : FetchArguments) (o : Object) : Prop :=
  ∃ name, o.metadata.namespaceName = some name ∧ name ≠ "" ∧ Filter.Permitted
    (config.filters.selectNamespaces ++ arguments.filter.selectNamespaces)
    (config.filters.ignoreNamespaces ++ arguments.filter.ignoreNamespaces) name

variable (config : Config) (arguments : FetchArguments)

theorem mayList_of_leads {found : Except RequestError Catalog} {kind : Kind} {r : Resource}
    (h : (Mapper.ofDiscovery found).Leads (config.filters.merge arguments.filter) kind r) :
    MayList config arguments found r := by
  obtain ⟨hPasses, m, hMapped, rfl, hPlural, hVerbs⟩ := h
  obtain ⟨catalog, hFound, hMapping, hKind⟩ := Mapper.ofDiscovery_eq_ok hMapped
  obtain ⟨noLists, noReviews, noBindings⟩ := (Resource.isEnumerable_iff _).mp hPlural
  refine ⟨?_, noLists, noReviews, noBindings, catalog, hFound, m, hMapping, rfl, hVerbs⟩
  rw [hKind]
  rw [← Filter.checkKind_eq_ok_iff, Filter.checkKind_merge_eq_ok_iff] at hPasses
  exact hPasses

theorem mayWrite_of_mem_objects (pass : Pass) (o : Object)
    (hObject : o ∈ (pass.report (config.filters.merge arguments.filter)).objects) :
    MayWrite config arguments o := by
  obtain ⟨l, _, hKept⟩ := List.mem_flatMap.mp hObject
  obtain ⟨name, hName, hNonempty, hAllowed⟩ := l.exists_namespace_of_mem_kept _ o hKept
  exact ⟨name, hName, hNonempty, (Filter.allowsNamespace_merge_iff _ _ name).mp hAllowed⟩

/-- Leaving out the field managers changes nothing about the namespace. -/
theorem mayWrite_of_mem_written {objects : List Object}
    (hObjects : ∀ o ∈ objects, MayWrite config arguments o) (o : Object)
    (hWritten : o ∈ written arguments objects) : MayWrite config arguments o := by
  unfold written at hWritten
  split at hWritten
  · exact hObjects o hWritten
  · obtain ⟨original, hOriginal, rfl⟩ := List.mem_map.mp hWritten
    exact hObjects original hOriginal

/-! ## The fetch -/

/-- The lists hold for every list call of a fetch and for every object that it writes. -/
theorem fetch_restricted (c : Cluster) (past : List String) :
    match pass? c config arguments past with
    | .ok pass =>
        (fetch c config arguments past).2 =
            (c.discover past).2 ++ pass.calls.filterMap c.server.listRequest? ∧
          (∀ r ∈ pass.calls, MayList config arguments (c.discover past).1.value r) ∧
          ∃ objects, (fetch c config arguments past).1.stdout =
              writeObjects arguments.output objects ∧
            ∀ o ∈ objects, MayWrite config arguments o
    | .error _ =>
        (fetch c config arguments past).2 = (c.discover past).2 ∧
          (fetch c config arguments past).1.stdout = "" := by
  have hFetch := fetch_eq c config arguments past
  cases hPass : pass? c config arguments past with
  | error e =>
    simp only [hPass] at hFetch
    exact ⟨hFetch.2.2, hFetch.1⟩
  | ok pass =>
    simp only [hPass] at hFetch
    obtain ⟨hStdout, _, hRequests⟩ := hFetch
    refine ⟨hRequests, ?_, _, hStdout, ?_⟩
    · intro r hCall
      obtain ⟨kinds, rfl⟩ := pass?_eq_ok c config arguments past hPass
      rw [Pass.calls_run, Schedule.mem_resources_ofKinds_iff] at hCall
      obtain ⟨kind, _, hLeads⟩ := hCall
      exact mayList_of_leads config arguments hLeads
    · exact mayWrite_of_mem_written config arguments
        (mayWrite_of_mem_objects config arguments pass)

end Inventory

end ClusterInventory
