import Mathlib.Data.List.Pairwise
import ClusterInventory.Proofs.Completeness
import ClusterInventory.Proofs.Documents

/-! # Collections under several versions

A group serves one collection of objects under each of its versions. A pass over the discovered
kinds makes no list call twice, but to the pass the versions of a collection are resources of their
own: it lists each to which its kind leads back, and with them the same objects.
-/

namespace ClusterInventory

/-- The versions of a group serve the same objects under one plural. -/
def Resource.SharesObjects (r other : Resource) : Prop :=
  r.group = other.group ∧ r.plural = other.plural

namespace Catalog

variable (c : Catalog) (lister : Lister) (filter : Filter)

def TellsApart (same : Resource → Resource → Prop) : Prop :=
  ∀ m ∈ c.entries, ∀ other ∈ c.entries, m.isListable = true → other.isListable = true →
    same m.resource other.resource → m.resource = other.resource

def LeadsOnce : Prop :=
  ∀ kind ∈ c.listableKinds, ∀ other ∈ c.listableKinds, ∀ r s : Resource,
    c.mapper.Leads filter kind r → c.mapper.Leads filter other s → r.SharesObjects s → r = s

/-- An entry to which its own kind leads back: the first one of that kind in its version, in a group
that did not fail. A pass over everything is sure to list it. -/
structure Reaches (m : Mapping) : Prop where
  finds : c.Finds m.resource.toKind m
  listable : m.isListable = true
  enumerable : Resource.isEnumerable m.resource.plural = true
  permitted : Filter.Permitted filter.selectKinds filter.ignoreKinds m.resource.kind

theorem mem_calls_sweep_iff (r : Resource) :
    r ∈ (c.sweep lister filter).calls ↔ ∃ kind ∈ c.listableKinds, c.mapper.Leads filter kind r := by
  rw [sweep, Pass.calls_run, Schedule.mem_resources_ofKinds_iff]

theorem Reaches.mem_calls_sweep {c : Catalog} {filter : Filter} {m : Mapping}
    (h : c.Reaches filter m) : m.resource ∈ (c.sweep lister filter).calls := by
  have hKind : m.resource.toKind ∈ c.listableKinds :=
    (mem_listableKinds_iff c.mappings _).mpr ⟨m, h.finds.mem_mappings, h.listable, rfl⟩
  have hMapped := (c.mapper_eq_ok_iff m.resource.toKind m).mpr h.finds
  have hVerbs := m.isListable_iff.mp h.listable
  rw [mem_calls_sweep_iff]
  exact ⟨_, hKind, h.permitted, m, hMapped, rfl, h.enumerable, hVerbs⟩

theorem nodup_calls_sweep : (c.sweep lister filter).calls.Nodup := by
  rw [sweep, Pass.calls_run]
  exact Schedule.nodup_resources_ofKinds c.mapper filter c.listableKinds

theorem exists_entry_of_mem_calls_sweep {r : Resource} (h : r ∈ (c.sweep lister filter).calls) :
    ∃ m ∈ c.entries, m.isListable = true ∧ m.resource = r := by
  obtain ⟨kind, _, _, m, hMapped, hResource, _, hVerbs⟩ :=
    (c.mem_calls_sweep_iff lister filter r).mp h
  have hMapping := ((c.mapper_eq_ok_iff kind m).mp hMapped).mem_mappings
  exact ⟨m, c.mem_entries_of_mem_mappings hMapping, m.isListable_iff.mpr hVerbs, hResource⟩

theorem TellsApart.pairwise_calls_sweep {c : Catalog} {same : Resource → Resource → Prop}
    (h : c.TellsApart same) :
    (c.sweep lister filter).calls.Pairwise fun r other => ¬same r other := by
  refine (c.nodup_calls_sweep lister filter).imp_of_mem ?_
  intro r other hCall hOther hNe hSame
  obtain ⟨m, hEntry, hListable, rfl⟩ := c.exists_entry_of_mem_calls_sweep lister filter hCall
  obtain ⟨n, hEntryOther, hListableOther, rfl⟩ :=
    c.exists_entry_of_mem_calls_sweep lister filter hOther
  exact hNe (h m hEntry n hEntryOther hListable hListableOther hSame)

theorem pairwise_calls_sweep_iff :
    ((c.sweep lister filter).calls.Pairwise fun r other => ¬r.SharesObjects other) ↔
      c.LeadsOnce filter := by
  constructor
  · intro hPairwise kind hKind other hOther r s hLeads hLeadsOther hShares
    have hSymmetric : Std.Symm fun r other : Resource => ¬r.SharesObjects other :=
      ⟨fun r s hApart ⟨hGroup, hPlural⟩ => hApart ⟨hGroup.symm, hPlural.symm⟩⟩
    have hCall := (c.mem_calls_sweep_iff lister filter r).mpr ⟨kind, hKind, hLeads⟩
    have hCallOther := (c.mem_calls_sweep_iff lister filter s).mpr ⟨other, hOther, hLeadsOther⟩
    refine Classical.byContradiction fun hNe => ?_
    exact hPairwise.forall hCall hCallOther hNe hShares
  · intro hOnce
    refine (c.nodup_calls_sweep lister filter).imp_of_mem ?_
    intro r s hCall hCallOther hNe hShares
    obtain ⟨kind, hKind, hLeads⟩ := (c.mem_calls_sweep_iff lister filter r).mp hCall
    obtain ⟨other, hOther, hLeadsOther⟩ := (c.mem_calls_sweep_iff lister filter s).mp hCallOther
    exact hNe (hOnce kind hKind other hOther r s hLeads hLeadsOther hShares)

end Catalog

namespace Inventory

/-- In a pass over the discovered kinds two list calls for the same objects differ in version, API
version or kind: in version where the discovery has one resource for each plural of a version.
Every version is listed that has an entry to which its kind leads back, if the filter lets the kind
pass. No two calls are for the same objects exactly if no two discovered kinds lead to them through
different resources, as where the discovery has one resource for each plural of a group. -/
theorem calls_everything_differ (c : Cluster) (filters moreFilters : Filter) (managedFields : Bool)
    (output : OutputFormat) (past : List String) :
    let filter := filters.merge moreFilters
    match pass? c { filters } { filter := moreFilters, managedFields, output } past with
    | .error e => (c.discover past).1.value = .error e
    | .ok pass => ∃ catalog, (c.discover past).1.value = .ok catalog ∧
        (pass.calls.Pairwise fun r other => r.SharesObjects other →
          r.version ≠ other.version ∨ r.apiVersion ≠ other.apiVersion ∨ r.kind ≠ other.kind) ∧
        (catalog.TellsApart Resource.SameCollection →
          pass.calls.Pairwise fun r other => r.SharesObjects other → r.version ≠ other.version) ∧
        (∀ m, catalog.Reaches filter m → m.resource ∈ pass.calls) ∧
        ((pass.calls.Pairwise fun r other => ¬r.SharesObjects other) ↔
          catalog.LeadsOnce filter) ∧
        (catalog.TellsApart Resource.SharesObjects →
          pass.calls.Pairwise fun r other => ¬r.SharesObjects other) := by
  intro filter
  rw [pass?_eq_map c { filters } { filter := moreFilters, managedFields, output } past rfl]
  cases hFound : (c.discover past).1.value with
  | error e => rfl
  | ok catalog =>
    have hNodup := catalog.nodup_calls_sweep (c.lister (c.discover past).2) filter
    refine ⟨catalog, rfl, ?_, ?_, fun m hReaches => hReaches.mem_calls_sweep _,
      catalog.pairwise_calls_sweep_iff _ filter, fun hApart => hApart.pairwise_calls_sweep _ filter⟩
    · refine hNodup.imp ?_
      rintro ⟨group, version, apiVersion, kind, plural⟩ ⟨_, _, _, _, _⟩ hNe ⟨rfl, rfl⟩
      simpa only [ne_eq, Resource.mk.injEq, true_and, and_true,
        Classical.not_and_iff_not_or_not] using hNe
    · intro hApart
      refine (hApart.pairwise_calls_sweep _ filter).imp ?_
      intro r other hApart ⟨hGroup, hPlural⟩ hVersion
      exact hApart ⟨hGroup, hVersion, hPlural⟩

/-! ## A collection with two versions -/

def autoscalerDocument? (path : String) : Option Json :=
  let version (text : String) : Json :=
    .object [("groupVersion", .string ("autoscaling/" ++ text)), ("version", .string text)]
  let resources (text : String) : Json :=
    .object [("groupVersion", .string ("autoscaling/" ++ text)), ("resources", .array [
      .object [("kind", .string "HorizontalPodAutoscaler"),
        ("name", .string "horizontalpodautoscalers"), ("verbs", .array [.string "list"])]])]
  let items : Json :=
    .object [("items", .array [.object [("metadata", .object [("name", .string "web")])]])]
  let group : Json :=
    .object [("name", .string "autoscaling"), ("versions", .array [version "v2", version "v1"])]
  [("/apis", .object [("groups", .array [group])]),
    ("/api", .object [("versions", .array [.string "v1"])]),
    ("/api/v1", .object [("groupVersion", .string "v1"), ("resources", .array [])]),
    ("/apis/autoscaling/v2", resources "v2"), ("/apis/autoscaling/v1", resources "v1"),
    ("/apis/autoscaling/v2/horizontalpodautoscalers", items),
    ("/apis/autoscaling/v1/horizontalpodautoscalers", items)].lookup path

def autoscalers : Cluster where
  name := "test"
  server := .ofDocuments autoscalerDocument?

def autoscalerList (version : String) : ResourceList where
  groupVersion := "autoscaling/" ++ version
  resources :=
    [⟨"horizontalpodautoscalers", "HorizontalPodAutoscaler", none, none, false, ["list"]⟩]

def autoscalerGroup (name : String) : Except RequestError ApiGroup :=
  if name = "" then .ok ⟨[⟨"v1", []⟩], some "v1"⟩
  else .ok ⟨["v2", "v1"].map fun v => ⟨v, (autoscalerList v).mappings⟩, none⟩

theorem autoscalers_serve : autoscalers.server.Serves ["autoscaling"] autoscalerGroup := by
  let group : GroupEntry :=
    ⟨"autoscaling", none, ["v2", "v1"].map fun v => ⟨"autoscaling/" ++ v, v⟩⟩
  have hVersions : (autoscalers.server.get .badPath readCoreVersions "/api").Yields (.ok ["v1"]) :=
    Server.get_ofDocuments_yields _ (by decide +kernel)
  have hList : autoscalers.server.HasList "/api/v1" ⟨"v1", []⟩ :=
    Server.get_ofDocuments_yields _ (by decide +kernel)
  have hRead : ∀ v ∈ group.versions, Server.read? autoscalerDocument? ResourceList.ofJson?
      ("/apis/" ++ v.groupVersion) = some (autoscalerList v.version) := by decide +kernel
  exact Server.serves_singleton (g := group) autoscalerList
    (Server.get_ofDocuments_yields _ (by decide +kernel))
    (Server.discoverCore_yields_singleton hVersions hList) (by decide) (by decide)
    (by decide +kernel) fun v hVersion => Server.get_ofDocuments_yields _ (hRead v hVersion)

def autoscalerResource (version : String) : Resource where
  group := "autoscaling"
  version := version
  apiVersion := "autoscaling/" ++ version
  kind := "HorizontalPodAutoscaler"
  plural := "horizontalpodautoscalers"

/-- Both versions are listed, and the one autoscaler is collected under each. -/
theorem calls_autoscalers_share :
    ∃ pass, pass? autoscalers {} {} [] = .ok pass ∧
      pass.calls = [autoscalerResource "v2", autoscalerResource "v1"] ∧
      (pass.report {}).objects.map (fun o => o.metadata.toJson.compact) =
        List.replicate 2 "\x7b\"name\":\"web\",\"namespace\":\"default\"\x7d" ∧
      ¬pass.calls.Pairwise fun r other => ¬r.SharesObjects other := by
  let catalog := Catalog.ofFindings
    (["", "autoscaling"].map fun name => (name, autoscalerGroup name))
  let pass := catalog.sweep (autoscalers.lister (autoscalers.discover []).2) {}
  have hPass : pass? autoscalers {} {} [] = .ok pass := by
    rw [pass?_eq_map autoscalers {} {} [] rfl, Cluster.discover_eq_of_serves autoscalers_serve []]
    rfl
  have hCalls : pass.calls = [autoscalerResource "v2", autoscalerResource "v1"] := by
    decide +kernel
  refine ⟨pass, hPass, hCalls, by decide +kernel, fun hPairwise => ?_⟩
  rw [hCalls] at hPairwise
  exact (List.pairwise_cons.mp hPairwise).1 _ (List.mem_singleton_self _) ⟨rfl, rfl⟩

end Inventory

end ClusterInventory
