import ClusterInventory.Proofs.Isolation
import ClusterInventory.Proofs.Steady
import ClusterInventory.Proofs.Success

/-! # Fetches with and without a discovery

A fetch that makes its own discovery comes to the same report as one that is handed the catalog of
an earlier discovery. If there can be no discovery, it reports every kind as skipped and asks for no
objects, while a fetch of everything fails.
-/

namespace ClusterInventory

/-! ## Mappers that fail -/

def Filter.skipReason (filter : Filter) (text : String) (kind : Kind) : SkipReason :=
  match filter.checkKind kind.name with
  | .error rejection => .rejected rejection
  | .ok () => .unmapped (.discoveryUnavailable text)

def Report.unavailable (text : String) (kinds : List Kind) (filter : Filter) : Report where
  objects := []
  outcomes := kinds.map fun kind => .skipped kind (filter.skipReason text kind)

section Unavailable

variable (text : String) (filter : Filter)

theorem Mapper.resolve_unavailable (scheduled : List Resource) (kind : Kind) :
    (Mapper.unavailable text).resolve filter scheduled kind =
      .error (filter.skipReason text kind) := by
  unfold resolve Filter.skipReason
  cases filter.checkKind kind.name <;> rfl

theorem Schedule.ofKinds_unavailable (kinds : List Kind) :
    ofKinds (Mapper.unavailable text) filter kinds =
      ⟨[], kinds.map fun kind => (kind, filter.skipReason text kind)⟩ := by
  have hFold : ∀ s : Schedule, kinds.foldl (add (Mapper.unavailable text) filter) s =
      ⟨s.resources, s.skipped ++ kinds.map fun kind => (kind, filter.skipReason text kind)⟩ := by
    induction kinds with
    | nil => exact fun s => by rw [List.map_nil, List.append_nil]; rfl
    | cons kind rest ih =>
      intro s
      rw [List.foldl_cons, ih, add, Mapper.resolve_unavailable, List.map_cons, List.append_assoc,
        List.singleton_append]
  exact hFold {}

theorem Pass.run_unavailable (lister : Lister) (kinds : List Kind) :
    Pass.run (Mapper.unavailable text) lister kinds filter =
      ⟨kinds.map fun kind => (kind, filter.skipReason text kind), []⟩ := by
  rw [run, Schedule.ofKinds_unavailable]
  rfl

theorem Pass.report_run_unavailable (lister : Lister) (kinds : List Kind) :
    (Pass.run (Mapper.unavailable text) lister kinds filter).report filter =
      .unavailable text kinds filter := by
  rw [run_unavailable]
  simp [report, Report.unavailable]

theorem Filter.isUnavailable_skipReason (kind : Kind) :
    (Outcome.skipped kind (filter.skipReason text kind)).isUnavailable = true ↔
      filter.checkKind kind.name = .ok () := by
  unfold skipReason
  cases filter.checkKind kind.name <;> simp [Outcome.isUnavailable]

theorem Report.isTotalFailure_unavailable (kinds : List Kind) :
    (Report.unavailable text kinds filter).isTotalFailure = true ↔
      ∃ kind ∈ kinds, filter.checkKind kind.name = .ok () := by
  have hNothing : ¬(Report.unavailable text kinds filter).HasListed := by
    rintro ⟨r, listed, kept, hOutcome⟩
    obtain ⟨kind, _, hSkipped⟩ := List.mem_map.mp hOutcome
    cases hSkipped
  have hNoFailure : ¬(Report.unavailable text kinds filter).HasFailed := by
    rintro ⟨r, error, hOutcome⟩
    obtain ⟨kind, _, hSkipped⟩ := List.mem_map.mp hOutcome
    cases hSkipped
  rw [isTotalFailure_iff, and_iff_right hNothing, or_iff_right hNoFailure]
  constructor
  · rintro ⟨o, hOutcome, hUnavailable⟩
    obtain ⟨kind, hKind, rfl⟩ := List.mem_map.mp hOutcome
    exact ⟨kind, hKind, (Filter.isUnavailable_skipReason text filter kind).mp hUnavailable⟩
  · rintro ⟨kind, hKind, hPasses⟩
    exact ⟨_, List.mem_map_of_mem hKind,
      (Filter.isUnavailable_skipReason text filter kind).mpr hPasses⟩

end Unavailable

/-! ## Without a list of groups -/

namespace Server

/-- Asking for a document is one request, whatever the answer says. -/
theorem snd_get {α : Type} (server : Server) (onBadPath : RequestError) (read : Json → Option α)
    {text : String} {path : List Char} {query : Option (List Char)}
    (hTarget : Uri.target? text.toList = some (path, query)) (past : List String) :
    (server.get onBadPath read text past).2 =
      past ++ [server.base ++ String.ofList path ++ queryText query] := by
  unfold get
  simp only [hTarget, Exchange.bind_apply]
  cases bodyOf (server.send path query past).1 with
  | error e => rfl
  | ok body =>
    dsimp only
    cases (Json.parse? body).bind read <;> rfl

theorem target?_groupList : Uri.target? "/apis".toList = some ("/apis".toList, none) := by
  decide +kernel

theorem snd_groupList (server : Server) (past : List String) :
    (server.groupList past).2 = past ++ [server.base ++ "/apis"] := by
  have hQuery : queryText none = "" := rfl
  rw [groupList, snd_get server _ _ target?_groupList, String.ofList_toList, hQuery,
    String.append_empty]

end Server

theorem Cluster.snd_discover_of_groupList {c : Cluster} {e : RequestError} {past : List String}
    (h : (c.server.groupList past).1 = .error e) :
    (c.discover past).2 = (c.server.groupList past).2 := by
  unfold discover Server.survey
  simp only [Exchange.bind_apply, h]
  rfl

namespace Cluster

/-- What becomes of the fetches from a cluster whose list of groups cannot be read: nothing but that
list is asked for, and every kind that the filter lets pass is skipped with the error. -/
structure Degrades (c : Cluster) (e : RequestError) (kinds : List Kind) (filter : Filter)
    (past : List String) : Prop where
  discover : (c.discover past).1.value = .error e
  requests : (c.fetchObjects kinds filter past).2 = past ++ [c.server.base ++ "/apis"]
  objects : (c.fetchObjects kinds filter past).1.value.objects = []
  outcomes : (c.fetchObjects kinds filter past).1.value.outcomes =
    kinds.map fun kind => .skipped kind (filter.skipReason e.message kind)
  isTotalFailure : (c.fetchObjects kinds filter past).1.value.isTotalFailure = true ↔
    ∃ kind ∈ kinds, filter.checkKind kind.name = .ok ()
  everything : ∀ (config : Config) (arguments : FetchArguments),
    Inventory.requestedKinds config arguments = none →
      (Inventory.fetch c config arguments past).1.result = Inventory.requestFailure e ∧
      (Inventory.fetch c config arguments past).1.stdout = "" ∧
      (Inventory.fetch c config arguments past).2 = past ++ [c.server.base ++ "/apis"]

theorem degrades_of_groupList {c : Cluster} {e : RequestError} {past : List String}
    (h : (c.server.groupList past).1 = .error e) (kinds : List Kind) (filter : Filter) :
    c.Degrades e kinds filter past := by
  have hDiscover : (c.discover past).1.value = .error e := by
    have hFound := c.discover_eq past
    rwa [h] at hFound
  have hRequests : (c.discover past).2 = past ++ [c.server.base ++ "/apis"] := by
    rw [snd_discover_of_groupList h, Server.snd_groupList]
  obtain ⟨hReport, hCalls⟩ := c.fetchObjects_eq kinds filter past
  rw [hDiscover, Mapper.ofDiscovery, Pass.report_run_unavailable] at hReport
  rw [hDiscover, Mapper.ofDiscovery, Pass.run_unavailable] at hCalls
  refine ⟨hDiscover, ?_, ?_, ?_, ?_, ?_⟩
  · rw [hCalls, hRequests]
    exact List.append_nil _
  · rw [hReport]
    rfl
  · rw [hReport]
    rfl
  · rw [hReport]
    exact Report.isTotalFailure_unavailable e.message filter kinds
  · intro config arguments hNone
    have hFetch := Inventory.fetch_eq c config arguments past
    rw [Inventory.pass?_eq_map c config arguments past hNone, hDiscover] at hFetch
    exact ⟨hFetch.2.1, hFetch.1, hFetch.2.2.trans hRequests⟩

/-- A fetch by itself agrees with a fetch from a catalog that was made at any time. -/
theorem fetchObjects_agrees (c : Cluster) (hSteady : c.server.Steady) (kinds : List Kind)
    (filter : Filter) (past : List String) :
    match (c.server.groupList past).1 with
    | .ok _ => ∃ catalog, (c.discover past).1.value = .ok catalog ∧
        ∀ now later, (c.fetchObjects kinds filter now).1.value =
          (c.fetchObjectsWith catalog.mapper kinds filter later).1.value
    | .error e => c.Degrades e kinds filter past := by
  have hDiscover := c.discover_eq past
  cases hGroups : (c.server.groupList past).1 with
  | error e => exact degrades_of_groupList hGroups kinds filter
  | ok groups =>
    simp only [hGroups] at hDiscover
    obtain ⟨catalog, hFound⟩ := hDiscover
    refine ⟨catalog, hFound, fun now later => ?_⟩
    have hNow : (c.discover now).1.value = .ok catalog := by
      rw [(steady_discover hSteady).value_eq now past, hFound]
    rw [(c.fetchObjects_eq kinds filter now).1, hNow, lister_eq_of_steady hSteady _ later]
    rfl

end Cluster

theorem Server.steady_ofDocuments (document? : String → Option Json) :
    (ofDocuments document?).Steady :=
  fun _ _ _ => rfl

def unreachable : Cluster where
  name := "test"
  server := { answer := fun _ _ => .unreachable "connection refused" }

theorem groupList_unreachable :
    (unreachable.server.groupList []).1 = .error (.unreachable "connection refused") := by
  unfold Server.groupList Server.get
  simp only [Server.target?_groupList]
  rfl

/-- A kind that is asked for twice is skipped twice for the same reason, and an ignored one for its
own. Where there is a catalog, both ways go by it. -/
theorem fetchObjects_agrees_deployments :
    let deployment : Kind := ⟨"apps", "", "Deployment"⟩
    let secret : Kind := ⟨"", "", "Secret"⟩
    let kinds := [deployment, secret, deployment]
    let filter : Filter := { ignoreKinds := ["Secret"] }
    let error : MappingError := .discoveryUnavailable "ServiceError: connection refused"
    let report := (unreachable.fetchObjects kinds filter []).1.value
    unreachable.server.Steady ∧ (deployments true).server.Steady ∧
      report.outcomes = [.skipped deployment (.unmapped error),
        .skipped secret (.rejected .ignored), .skipped deployment (.unmapped error)] ∧
      report.isTotalFailure = true ∧ (Inventory.fetch unreachable {} {} []).1.stdout = "" ∧
      ∃ catalog, ((deployments true).discover []).1.value = .ok catalog ∧
        (catalog.mapper deployment).toBool = true ∧
        ∀ now later, ((deployments true).fetchObjects kinds filter now).1.value =
          ((deployments true).fetchObjectsWith catalog.mapper kinds filter later).1.value := by
  intro deployment secret kinds filter error report
  have hUnreachable : unreachable.server.Steady := fun _ _ _ => rfl
  have hSteady : (deployments true).server.Steady := Server.steady_ofDocuments _
  have hAnswered : ((deployments true).server.groupList []).1.toBool = true := by decide +kernel
  have hFound := Cluster.discover_eq_of_serves (deployments_serve true) []
  have hMapped : ((Catalog.ofFindings (["", "apps"].map fun name =>
      (name, deploymentGroup true name))).mapper deployment).toBool = true := by decide +kernel
  have hReasons : kinds.map (fun kind => Outcome.skipped kind
      (filter.skipReason (RequestError.unreachable "connection refused").message kind)) =
      [.skipped deployment (.unmapped error), .skipped secret (.rejected .ignored),
        .skipped deployment (.unmapped error)] := by decide +kernel
  have hPasses : filter.checkKind deployment.name = .ok () := rfl
  have hDegrades := unreachable.fetchObjects_agrees hUnreachable kinds filter []
  rw [groupList_unreachable] at hDegrades
  refine ⟨hUnreachable, hSteady, hDegrades.outcomes.trans hReasons,
    hDegrades.isTotalFailure.mpr ⟨deployment, List.mem_cons_self, hPasses⟩,
    (hDegrades.everything {} {} rfl).2.1, _, hFound, hMapped, ?_⟩
  -- The theorem is applied to a cluster of which nothing can be evaluated any more.
  generalize deployments true = c at hSteady hAnswered hFound ⊢
  have hAgrees := c.fetchObjects_agrees hSteady kinds filter []
  cases hGroups : (c.server.groupList []).1 with
  | error e =>
    rw [hGroups] at hAnswered
    cases hAnswered
  | ok groups =>
    rw [hGroups] at hAgrees
    obtain ⟨catalog, hCatalog, hSame⟩ := hAgrees
    obtain rfl := Except.ok.inj (hCatalog.symm.trans hFound)
    exact hSame

end ClusterInventory
