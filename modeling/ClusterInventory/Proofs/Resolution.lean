import ClusterInventory.Proofs.Isolation
import ClusterInventory.Proofs.Ranking
import ClusterInventory.Proofs.Success

/-! # How kinds are resolved

What the discovery of its group came to decides what a kind is mapped to: to the error of a group
that failed, or else to the first entry of its name in the version that it asks for, or to nothing
where its group, its version or its name is not served.
-/

namespace ClusterInventory

namespace Catalog

variable (findings : List Finding) (kind : Kind)

def Offers (m : Mapping) : Prop :=
  ∃ g version, Fields.IsLast (discovered findings) kind.group g ∧ g.Asks kind.version version ∧
    IsFirst (·.resource.kind = kind.name) (g.resourcesOf version) m

/-- What a kind comes to. An entry counts only if no discovery of the group failed. -/
def Answers : Except MappingError Mapping → Prop
  | .error (.discoveryUnavailable text) =>
      ∃ e, Fields.IsLast (failures findings) kind.group e ∧
        text = "API group '" ++ groupLabel kind.group ++ "': " ++ e.message
  | .ok m => ¬Fails findings kind.group ∧ Offers findings kind m
  | .error (.notFound text) =>
      ¬Fails findings kind.group ∧ (∀ m, ¬Offers findings kind m) ∧ text = kind.canonical

def IsOwnEntry (m : Mapping) : Prop :=
  m.resource.kind = kind.name ∧ ∃ g version v, (kind.group, .ok g) ∈ findings ∧
    g.Asks kind.version version ∧ v ∈ g.versions ∧ v.version = version ∧ m ∈ v.mappings

variable {findings kind}

theorem Offers.isOwnEntry {m : Mapping} (h : Offers findings kind m) :
    IsOwnEntry findings kind m := by
  obtain ⟨g, version, hGroup, hAsks, hFirst⟩ := h
  obtain ⟨v, hVersion, hName, hMapping⟩ := g.exists_version_of_mem_resourcesOf hFirst.mem
  exact ⟨hFirst.holds, g, version, v, (mem_discovered_iff findings _ g).mp hGroup.mem, hAsks,
    hVersion, hName, hMapping⟩

def AllRanked (findings : List Finding) : Prop :=
  ∀ name g, (name, .ok g) ∈ findings → g.Ranked

theorem finds_iff (h : AllRanked findings) (m : Mapping) :
    (ofFindings findings).Finds kind m ↔ ¬Fails findings kind.group ∧ Offers findings kind m := by
  unfold Finds Offers
  rw [get?_failed_ofFindings_eq_none_iff]
  refine and_congr_right fun _ => exists_congr fun g => ?_
  rw [get?_groups_ofFindings_eq_some_iff]
  constructor
  · rintro ⟨hGroup, hFirst⟩
    have hRanked := h kind.group g ((mem_discovered_iff findings _ g).mp hGroup.mem)
    exact ⟨_, hGroup, (hRanked.asks_iff kind.version _).mpr rfl, hFirst⟩
  · rintro ⟨version, hGroup, hAsks, hFirst⟩
    have hRanked := h kind.group g ((mem_discovered_iff findings _ g).mp hGroup.mem)
    obtain rfl := (hRanked.asks_iff kind.version version).mp hAsks
    exact ⟨hGroup, hFirst⟩

theorem mapper_eq_iff (h : AllRanked findings) (answer : Except MappingError Mapping) :
    (ofFindings findings).mapper kind = answer ↔ Answers findings kind answer := by
  match answer with
  | .ok m =>
    rw [mapper_eq_ok_iff]
    exact finds_iff h m
  | .error (.notFound text) =>
    rw [mapper_eq_notFound_iff, get?_failed_ofFindings_eq_none_iff]
    refine and_congr_right fun hAnswered => and_congr_left fun _ => forall_congr' fun m => ?_
    rw [finds_iff h, and_iff_right hAnswered]
  | .error (.discoveryUnavailable text) =>
    simp only [mapper_eq_unavailable_iff, get?_failed_ofFindings_eq_some_iff]
    constructor
    · rintro ⟨_, ⟨e, hLast, rfl⟩, hText⟩
      exact ⟨e, hLast, hText⟩
    · rintro ⟨e, hLast, hText⟩
      exact ⟨_, ⟨e, hLast, rfl⟩, hText⟩

end Catalog

namespace Cluster

variable (c : Cluster) (past : List String)

structure Resolves (catalog : Catalog) (findings : List Finding) : Prop where
  survey : (c.server.survey past).1 = .ok findings
  found : ∀ finding ∈ findings, c.server.Found finding
  answers : ∀ kind answer, catalog.mapper kind = answer ↔ Catalog.Answers findings kind answer
  unavailable : ∀ kind, (∃ text, catalog.mapper kind = .error (.discoveryUnavailable text)) ↔
    Catalog.Fails findings kind.group
  entries : ∀ kind m, catalog.mapper kind = .ok m → Catalog.IsOwnEntry findings kind m

variable {c past}

/-- Whatever the server answers, and however often it names a group. -/
theorem discover_resolves {catalog : Catalog} (h : (c.discover past).1.value = .ok catalog) :
    ∃ findings, c.Resolves past catalog findings := by
  rw [discover_value_eq] at h
  cases hSurvey : (c.server.survey past).1 with
  | error e =>
    rw [hSurvey] at h
    cases h
  | ok findings =>
    rw [hSurvey] at h
    obtain rfl := Except.ok.inj h
    have hFindings := Server.found_of_survey past findings hSurvey
    have hRanked : Catalog.AllRanked findings := by
      intro name g hFinding
      obtain ⟨earlier, hFound⟩ := hFindings _ hFinding
      exact c.server.ranked_of_discoverGroup name earlier g hFound.symm
    refine ⟨findings, hSurvey, hFindings, fun kind => Catalog.mapper_eq_iff hRanked,
      Catalog.mapper_eq_discoveryUnavailable_iff findings, ?_⟩
    intro kind m hMapped
    exact ((Catalog.mapper_eq_iff hRanked _).mp hMapped).2.isOwnEntry

/-- The core group does not answer. Of the other group one kind is asked for without a version, and
one under a version that is not served. -/
theorem discover_deployments_resolves :
    let error := RequestError.refused (Refusal.ofBody 404 "")
    ∃ catalog, ((deployments false).discover []).1.value = .ok catalog ∧
      catalog.mapper ⟨"", "", "Pod"⟩ =
        .error (.discoveryUnavailable ("API group 'core': " ++ error.message)) ∧
      ((catalog.mapper ⟨"apps", "", "Deployment"⟩).toOption.map Mapping.resource =
        some ⟨"apps", "v1", "apps/v1", "Deployment", "deployments"⟩) ∧
      catalog.mapper ⟨"apps", "v9", "Deployment"⟩ = .error (.notFound "Deployment.apps/v9") ∧
      ∃ findings, (deployments false).Resolves [] catalog findings := by
  intro error
  have hFound := Cluster.discover_eq_of_serves (deployments_serve false) []
  exact ⟨_, hFound, by rfl, by decide +kernel, by rfl, discover_resolves hFound⟩

end Cluster

end ClusterInventory
