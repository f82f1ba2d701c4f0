import ClusterInventory.Inventory

/-! # A fetch is a pass

What a fetch command does after discovery is one pass: over the kinds that are asked for, or over
all kinds that were discovered. Its list calls follow the requests of the discovery, and what it
writes are the objects of its report.
-/

namespace ClusterInventory

namespace Exchange

variable {α β : Type}

@[simp] theorem bind_apply (x : Exchange α) (next : α → Exchange β) (past : List String) :
    (x >>= next) past = next (x past).1 (x past).2 := rfl

@[simp] theorem pure_apply (a : α) (past : List String) : (pure a : Exchange α) past = (a, past) :=
  rfl

end Exchange

def Mapper.ofDiscovery : Except RequestError Catalog → Mapper
  | .ok catalog => catalog.mapper
  | .error e => Mapper.unavailable e.message

def Catalog.sweep (catalog : Catalog) (lister : Lister) (filter : Filter) : Pass :=
  Pass.run catalog.mapper lister catalog.listableKinds filter

namespace Cluster

variable (c : Cluster) (kinds : List Kind) (filter : Filter) (past : List String)

/-- A discovery finds a catalog unless the list of groups cannot be read. -/
theorem discover_eq :
    match (c.server.groupList past).1 with
    | .ok _ => ∃ catalog, (c.discover past).1.value = .ok catalog
    | .error e => (c.discover past).1.value = .error e := by
  unfold discover Server.survey
  simp only [Exchange.bind_apply]
  cases (c.server.groupList past).1 with
  | ok groups => exact ⟨_, rfl⟩
  | error e => rfl

theorem discover_value_eq :
    (c.discover past).1.value = (c.server.survey past).1.map Catalog.ofFindings := by
  unfold discover
  simp only [Exchange.bind_apply]
  cases (c.server.survey past).1 with
  | ok findings => rfl
  | error e => rfl

theorem fetchObjects_eq :
    let found := c.discover past
    let pass := Pass.run (Mapper.ofDiscovery found.1.value) (c.lister found.2) kinds filter
    (c.fetchObjects kinds filter past).1.value = pass.report filter ∧
      (c.fetchObjects kinds filter past).2 =
        found.2 ++ pass.calls.filterMap c.server.listRequest? := by
  unfold fetchObjects
  simp only [Exchange.bind_apply]
  rcases c.discover past with ⟨⟨value, log⟩, after⟩
  cases value with
  | ok catalog => exact ⟨rfl, rfl⟩
  | error e => exact ⟨rfl, rfl⟩

end Cluster

namespace Inventory

variable (c : Cluster) (config : Config) (arguments : FetchArguments) (past : List String)

/-- The pass of a fetch. There is none where the kinds to fetch cannot be discovered. -/
def pass? : Except RequestError Pass :=
  let found := c.discover past
  let filter := config.filters.merge arguments.filter
  match requestedKinds config arguments with
  | some kinds =>
      .ok (Pass.run (Mapper.ofDiscovery found.1.value) (c.lister found.2) kinds filter)
  | none =>
      found.1.value.map fun catalog =>
        Pass.run catalog.mapper (c.lister found.2) catalog.listableKinds filter

/-- Where no kinds are asked for, the pass is over those that can be listed. -/
theorem pass?_eq_map (h : requestedKinds config arguments = none) :
    pass? c config arguments past = (c.discover past).1.value.map fun catalog =>
      catalog.sweep (c.lister (c.discover past).2) (config.filters.merge arguments.filter) := by
  simp only [pass?, h, Catalog.sweep]

theorem pass?_eq_ok {pass : Pass} (h : pass? c config arguments past = .ok pass) :
    ∃ kinds, pass = Pass.run (Mapper.ofDiscovery (c.discover past).1.value)
      (c.lister (c.discover past).2) kinds (config.filters.merge arguments.filter) := by
  unfold pass? at h
  split at h
  · rename_i kinds _
    exact ⟨kinds, (Except.ok.inj h).symm⟩
  · cases hFound : (c.discover past).1.value with
    | ok catalog =>
      simp only [hFound, Except.map] at h
      exact ⟨catalog.listableKinds, (Except.ok.inj h).symm⟩
    | error e =>
      simp only [hFound, Except.map] at h
      cases h

def written (arguments : FetchArguments) (objects : List Object) : List Object :=
  if arguments.managedFields then objects else objects.map Object.stripManagedFields

theorem collect_eq :
    (collect c config arguments past).1.value =
        (pass? c config arguments past).map
          (Pass.report (config.filters.merge arguments.filter)) ∧
      (collect c config arguments past).2 =
        (c.discover past).2 ++
          (pass? c config arguments past).toOption.elim []
            fun pass => pass.calls.filterMap c.server.listRequest? := by
  unfold collect pass?
  cases requestedKinds config arguments with
  | some kinds =>
    obtain ⟨hValue, hRequests⟩ :=
      c.fetchObjects_eq kinds (config.filters.merge arguments.filter) past
    simp only [Exchange.bind_apply, Exchange.pure_apply, hValue, hRequests]
    exact ⟨rfl, rfl⟩
  | none =>
    simp only [Exchange.bind_apply]
    rcases c.discover past with ⟨⟨value, log⟩, after⟩
    cases value with
    | ok catalog => exact ⟨rfl, rfl⟩
    | error e => exact ⟨rfl, (List.append_nil _).symm⟩

/-- A fetch ends as its report says, or with the error that left it without a pass. -/
theorem fetch_eq :
    match pass? c config arguments past with
    | .ok pass =>
        let report := pass.report (config.filters.merge arguments.filter)
        (fetch c config arguments past).1.stdout =
            writeObjects arguments.output (written arguments report.objects) ∧
          (fetch c config arguments past).1.result =
            (if report.isTotalFailure then .error (.nothingFetched c.name) else .ok ()) ∧
          (fetch c config arguments past).2 =
            (c.discover past).2 ++ pass.calls.filterMap c.server.listRequest?
    | .error e =>
        (fetch c config arguments past).1.stdout = "" ∧
          (fetch c config arguments past).1.result = requestFailure e ∧
          (fetch c config arguments past).2 = (c.discover past).2 := by
  obtain ⟨hValue, hRequests⟩ := collect_eq c config arguments past
  unfold fetch
  simp only [Exchange.bind_apply]
  cases hPass : pass? c config arguments past with
  | ok pass =>
    rw [hPass] at hValue hRequests
    simp only [hValue, Except.map]
    exact ⟨rfl, rfl, hRequests⟩
  | error e =>
    rw [hPass] at hValue hRequests
    simp only [hValue, Except.map]
    exact ⟨rfl, rfl, hRequests.trans (List.append_nil _)⟩

end Inventory

end ClusterInventory
