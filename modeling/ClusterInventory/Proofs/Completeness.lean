import ClusterInventory.Proofs.Accounting
import ClusterInventory.Proofs.Catalog
import ClusterInventory.Proofs.Command

/-! # When a fetch of everything is complete

A fetch of everything asks for the kinds of the entries that can be listed, and a kind leads back
to the first entry of its name alone. So the fetch is complete exactly where no entry is lost on
the way to its kind and back. Entries that share a kind may be lost.
-/

namespace ClusterInventory

/-! ## Complete reports -/

def Resource.SameCollection (r other : Resource) : Prop :=
  r.group = other.group ∧ r.version = other.version ∧ r.plural = other.plural

/-- A reason that must not be given for a kind that the catalog shows to be listable. -/
def SkipReason.isLoss : SkipReason → Bool
  | .unmapped (.notFound _) => true
  | .notListable => true
  | .duplicate => true
  | _ => false

structure Report.Complete (report : Report) (catalog : Catalog) : Prop where
  attempted : ∀ m ∈ catalog.entries, m.isListable = true →
    Resource.isEnumerable m.resource.plural = true →
    ∃ r ∈ report.attempted, r.SameCollection m.resource
  accepted : ∀ kind ∈ catalog.listableKinds, ∀ reason : SkipReason,
    .skipped kind reason ∈ report.outcomes → reason.isLoss = false

/-! ## Traceable entries -/

namespace Catalog

variable (c : Catalog)

def Lists (kind : Kind) (r : Resource) : Prop :=
  ∃ m, c.Finds kind m ∧ m.resource = r ∧ Resource.isEnumerable r.plural = true ∧
    m.isListable = true

/-- The empty filter turns nothing away. -/
theorem leads_iff (kind : Kind) (r : Resource) :
    c.mapper.Leads {} kind r ↔ c.Lists kind r := by
  simp only [Mapper.Leads, Lists, ← mapper_eq_ok_iff, ← Mapping.isListable_iff]
  exact and_iff_right (Filter.permitted_nil kind.name)

structure Traceable : Prop where
  reached : ∀ m ∈ c.entries, m.isListable = true →
    Resource.isEnumerable m.resource.plural = true →
    ∃ kind ∈ c.listableKinds, ∃ r, c.Lists kind r ∧ r.SameCollection m.resource
  resolved : ∀ kind ∈ c.listableKinds, Fields.get? kind.group c.failed = none →
    ∃ m, c.Finds kind m ∧
      (Resource.isEnumerable m.resource.plural = true → m.isListable = true)
  distinct : ∀ kind ∈ c.listableKinds, ∀ other ∈ c.listableKinds, ∀ r : Resource,
    c.Lists kind r → c.Lists other r → kind = other

def IsFaithful : Prop := ∀ m ∈ c.entries, m.isListable = true → c.Finds m.resource.toKind m

variable {c}

theorem IsFaithful.finds_of_mem_listableKinds (h : c.IsFaithful) {kind : Kind}
    (hKind : kind ∈ c.listableKinds) :
    ∃ m, c.Finds kind m ∧ m.isListable = true ∧ m.resource.toKind = kind := by
  obtain ⟨m, hMapping, hListable, rfl⟩ := (mem_listableKinds_iff c.mappings kind).mp hKind
  exact ⟨m, h m (c.mem_entries_of_mem_mappings hMapping) hListable, hListable, rfl⟩

theorem IsFaithful.traceable (h : c.IsFaithful) : c.Traceable := by
  constructor
  · intro m hEntry hListable hPlural
    have hFinds := h m hEntry hListable
    refine ⟨m.resource.toKind, ?_, m.resource, ⟨m, hFinds, rfl, hPlural, hListable⟩, rfl, rfl, rfl⟩
    exact (mem_listableKinds_iff c.mappings _).mpr ⟨m, hFinds.mem_mappings, hListable, rfl⟩
  · intro kind hKind _
    obtain ⟨m, hFinds, hListable, _⟩ := h.finds_of_mem_listableKinds hKind
    exact ⟨m, hFinds, fun _ => hListable⟩
  · -- The resource that a kind leads to tells the kind.
    have hSource : ∀ kind ∈ c.listableKinds, ∀ r : Resource, c.Lists kind r → r.toKind = kind := by
      intro kind hKind r hLists
      obtain ⟨m, hFinds, _, hSame⟩ := h.finds_of_mem_listableKinds hKind
      obtain ⟨found, hFound, rfl, _⟩ := hLists
      rw [← hFinds.unique hFound, hSame]
    intro kind hKind other hOther r hLists hListsOther
    rw [← hSource kind hKind r hLists, hSource other hOther r hListsOther]

end Catalog

/-! ## The pass over everything -/

namespace Catalog

variable (c : Catalog) (lister : Lister)

def fetchAll : Report := fetchObjects c.mapper lister c.listableKinds {}

theorem mem_attempted_fetchAll_iff (r : Resource) :
    r ∈ (c.fetchAll lister).attempted ↔ ∃ kind ∈ c.listableKinds, c.mapper.Leads {} kind r := by
  unfold fetchAll fetchObjects
  rw [Pass.attempted_report, Pass.calls_run, Schedule.mem_resources_ofKinds_iff]

theorem skipped_mem_outcomes_fetchAll_iff (kind : Kind) (reason : SkipReason) :
    .skipped kind reason ∈ (c.fetchAll lister).outcomes ↔
      ∃ before, before ++ [kind] <+: c.listableKinds ∧
        c.mapper.resolve {} (Schedule.ofKinds c.mapper {} before).resources kind =
          .error reason := by
  unfold fetchAll fetchObjects
  rw [Pass.skipped_mem_outcomes_iff]
  exact Schedule.mem_skipped_ofKinds_iff c.mapper {} c.listableKinds kind reason

/-- A skipped kind is no loss where its listable entries can be traced. -/
theorem Traceable.isLoss_eq_false {c : Catalog} (h : c.Traceable) {before : List Kind} {kind : Kind}
    {reason : SkipReason} (hBefore : before ++ [kind] <+: c.listableKinds)
    (hReason : c.mapper.resolve {} (Schedule.ofKinds c.mapper {} before).resources kind =
      .error reason) :
    reason.isLoss = false := by
  have hKind : kind ∈ c.listableKinds := hBefore.subset (by simp)
  cases (c.mapper.resolve_eq_iff {} _ kind _).mp hReason with
  | ignored => rfl
  | notSelected => rfl
  | @unmapped e _ hMapped =>
    cases e with
    | discoveryUnavailable error => rfl
    | notFound text =>
      obtain ⟨hAnswered, hNothing, _⟩ := (c.mapper_eq_notFound_iff kind text).mp hMapped
      obtain ⟨m, hFinds, _⟩ := h.resolved kind hKind hAnswered
      exact absurd hFinds (hNothing m)
  | notEnumerable => rfl
  | @notListable m _ hMapped hPlural hVerbs =>
    have hFinds := (c.mapper_eq_ok_iff kind m).mp hMapped
    obtain ⟨found, hFound, hListable⟩ := h.resolved kind hKind hFinds.1
    rw [← hFinds.unique hFound] at hListable
    exact absurd (m.isListable_iff.mp (hListable hPlural)) hVerbs
  | @duplicate r hLeads hEarlier =>
    rw [Verdict.mem_map_ok_iff, Schedule.mem_resources_ofKinds_iff] at hEarlier
    obtain ⟨other, hOther, hLeadsOther⟩ := hEarlier
    have hMember : other ∈ c.listableKinds := hBefore.subset (List.mem_append_left _ hOther)
    rw [leads_iff] at hLeads hLeadsOther
    have hSame := h.distinct kind hKind other hMember r hLeads hLeadsOther
    -- No kind is asked for twice.
    have hNodup := (nodup_listableKinds c.mappings).sublist hBefore.sublist
    rw [(List.perm_append_singleton kind before).nodup_iff, List.nodup_cons] at hNodup
    exact absurd (hSame ▸ hOther) hNodup.1

variable {c lister}

/-- What a complete report says of a kind with the given verdict. -/
theorem isLoss_eq_false_of_complete (h : (c.fetchAll lister).Complete c) {before : List Kind}
    {kind : Kind} {reason : SkipReason} (hBefore : before ++ [kind] <+: c.listableKinds)
    (hDecides : Decides c.mapper {}
      ((Schedule.ofKinds c.mapper {} before).resources.map .ok) kind (.error reason)) :
    reason.isLoss = false := by
  have hReason := (c.mapper.resolve_eq_iff {} _ kind (.error reason)).mpr hDecides
  exact h.accepted kind (hBefore.subset (by simp)) reason
    ((c.skipped_mem_outcomes_fetchAll_iff lister kind reason).mpr ⟨before, hBefore, hReason⟩)

theorem not_lists_of_complete (h : (c.fetchAll lister).Complete c) {before : List Kind}
    {kind other : Kind} {r : Resource} (hBefore : before ++ [kind] <+: c.listableKinds)
    (hOther : other ∈ before) (hListsOther : c.Lists other r) : ¬c.Lists kind r := by
  intro hLists
  rw [← leads_iff] at hLists hListsOther
  have hScheduled : r ∈ (Schedule.ofKinds c.mapper {} before).resources :=
    (Schedule.mem_resources_ofKinds_iff c.mapper {} before r).mpr ⟨other, hOther, hListsOther⟩
  have hLoss := isLoss_eq_false_of_complete h hBefore
    (.duplicate hLists ((Verdict.mem_map_ok_iff r _).mpr hScheduled))
  cases hLoss

theorem resolved_of_complete (h : (c.fetchAll lister).Complete c) {kind : Kind}
    (hKind : kind ∈ c.listableKinds) (hAnswered : Fields.get? kind.group c.failed = none) :
    ∃ m, c.Finds kind m ∧
      (Resource.isEnumerable m.resource.plural = true → m.isListable = true) := by
  obtain ⟨before, after, hKinds⟩ := List.append_of_mem hKind
  have hBefore : before ++ [kind] <+: c.listableKinds := ⟨after, by simp [hKinds]⟩
  have hPasses := Filter.permitted_nil kind.name
  by_cases hFound : ∃ m, c.Finds kind m
  · obtain ⟨m, hFinds⟩ := hFound
    have hMapped := (c.mapper_eq_ok_iff kind m).mpr hFinds
    refine ⟨m, hFinds, fun hPlural => ?_⟩
    rw [m.isListable_iff]
    refine Classical.byContradiction fun hVerbs => ?_
    have hLoss := isLoss_eq_false_of_complete h hBefore (.notListable hPasses hMapped hPlural hVerbs)
    cases hLoss
  · have hMapped := (c.mapper_eq_notFound_iff kind kind.canonical).mpr
      ⟨hAnswered, not_exists.mp hFound, rfl⟩
    have hLoss := isLoss_eq_false_of_complete h hBefore (.unmapped hPasses hMapped)
    cases hLoss

theorem traceable_of_complete (h : (c.fetchAll lister).Complete c) : c.Traceable := by
  constructor
  · intro m hEntry hListable hPlural
    obtain ⟨r, hAttempted, hSame⟩ := h.attempted m hEntry hListable hPlural
    obtain ⟨kind, hKind, hLeads⟩ := (c.mem_attempted_fetchAll_iff lister r).mp hAttempted
    exact ⟨kind, hKind, r, (c.leads_iff kind r).mp hLeads, hSame⟩
  · intro kind hKind hAnswered
    exact resolved_of_complete h hKind hAnswered
  · intro kind hKind other hOther r hLists hListsOther
    -- One of the two kinds is asked for before the other, unless they are the same.
    obtain ⟨before, after, hKinds⟩ := List.append_of_mem hKind
    rw [hKinds, List.mem_append, List.mem_cons] at hOther
    rcases hOther with hOther | hSame | hOther
    · have hBefore : before ++ [kind] <+: c.listableKinds := ⟨after, by simp [hKinds]⟩
      exact absurd hLists (not_lists_of_complete h hBefore hOther hListsOther)
    · exact hSame.symm
    · obtain ⟨between, rest, rfl⟩ := List.append_of_mem hOther
      have hBefore : (before ++ kind :: between) ++ [other] <+: c.listableKinds :=
        ⟨rest, by simp [hKinds]⟩
      exact absurd hListsOther (not_lists_of_complete h hBefore (by simp) hLists)

theorem complete_of_traceable (h : c.Traceable) (lister : Lister) :
    (c.fetchAll lister).Complete c := by
  constructor
  · intro m hEntry hListable hPlural
    obtain ⟨kind, hKind, r, hLists, hSame⟩ := h.reached m hEntry hListable hPlural
    have hLeads := (c.leads_iff kind r).mpr hLists
    exact ⟨r, (c.mem_attempted_fetchAll_iff lister r).mpr ⟨kind, hKind, hLeads⟩, hSame⟩
  · intro kind _ reason hSkipped
    obtain ⟨before, hBefore, hReason⟩ :=
      (c.skipped_mem_outcomes_fetchAll_iff lister kind reason).mp hSkipped
    exact h.isLoss_eq_false hBefore hReason

end Catalog

/-! ## The fetch command -/

namespace Inventory

/-- Without requested kinds and filters a fetch asks for everything in the catalog. -/
theorem collect_eq_fetchAll (c : Cluster) (managedFields : Bool) (output : OutputFormat)
    (past : List String) {catalog : Catalog} (hFound : (c.discover past).1.value = .ok catalog) :
    (collect c {} { managedFields, output } past).1.value =
      .ok (catalog.fetchAll (c.lister (c.discover past).2)) := by
  rw [(collect_eq c {} { managedFields, output } past).1]
  simp only [pass?, requestedKinds, ne_eq, not_true_eq_false, if_false, hFound, Except.map]
  rfl

/-- A fetch of everything ends with a report wherever the list of groups can be read. The report
is complete exactly if the catalog is traceable, and it is if every listable entry is the first one
of its kind. -/
theorem collect_complete_iff (c : Cluster) (managedFields : Bool) (output : OutputFormat)
    (past : List String) :
    let collected := (collect c {} { managedFields, output } past).1.value
    match (c.server.groupList past).1 with
    | .ok _ => ∃ catalog report, (c.discover past).1.value = .ok catalog ∧
        collected = .ok report ∧ (report.Complete catalog ↔ catalog.Traceable) ∧
        (catalog.IsFaithful → report.Complete catalog)
    | .error e => collected = .error e := by
  intro collected
  have hDiscovery := c.discover_eq past
  cases hGroups : (c.server.groupList past).1 with
  | error e =>
    simp only [hGroups] at hDiscovery
    simp only [collected, (collect_eq c {} { managedFields, output } past).1]
    simp only [pass?, requestedKinds, ne_eq, not_true_eq_false, if_false, hDiscovery, Except.map]
  | ok groups =>
    simp only [hGroups] at hDiscovery
    obtain ⟨catalog, hFound⟩ := hDiscovery
    refine ⟨catalog, _, hFound, collect_eq_fetchAll c managedFields output past hFound, ?_, ?_⟩
    · exact ⟨Catalog.traceable_of_complete, fun h => Catalog.complete_of_traceable h _⟩
    · exact fun h => Catalog.complete_of_traceable h.traceable _

/-! ## Entries that share a kind -/

/-- The core group serves templates under two names, and only the second name can be listed. -/
def templateDocument (path : String) : Json :=
  let entry (name verb : String) : Json :=
    .object [("kind", .string "Template"), ("name", .string name), ("verbs", .array [.string verb])]
  if path = "/apis" then .object [("groups", .array [])]
  else if path = "/api" then .object [("versions", .array [.string "v1"])]
  else if path = "/api/v1" then
    .object [("groupVersion", .string "v1"),
      ("resources", .array [entry "processedtemplates" "create", entry "templates" "list"])]
  else .object [("items", .array [])]

def templates : Cluster where
  name := "test"
  server := { answer := fun _ path => .reply 200 (templateDocument path).compact }

/-- The kind is discovered as one that can be listed, and skipped as one that cannot. -/
theorem collect_templates_incomplete :
    ∃ catalog report, (templates.discover []).1.value = .ok catalog ∧
      (collect templates {} {} []).1.value = .ok report ∧
      catalog.listableKinds = [⟨"", "v1", "Template"⟩] ∧
      report.outcomes = [.skipped ⟨"", "v1", "Template"⟩ .notListable] ∧
      ¬report.Complete catalog := by
  have hRun : (templates.discover []).1.value.toOption.map Catalog.listableKinds =
        some [⟨"", "v1", "Template"⟩] ∧
      (collect templates {} {} []).1.value.toOption.map Report.outcomes =
        some [.skipped ⟨"", "v1", "Template"⟩ .notListable] := by decide +kernel
  obtain ⟨hKinds, hOutcomes⟩ := hRun
  -- From here on nothing is evaluated any more.
  generalize (templates.discover []).1.value = found at hKinds ⊢
  generalize (collect templates {} {} []).1.value = collected at hOutcomes ⊢
  cases found with
  | error e => cases hKinds
  | ok catalog =>
    cases collected with
    | error e => cases hOutcomes
    | ok report =>
      have hKinds := Option.some.inj hKinds
      have hOutcomes := Option.some.inj hOutcomes
      refine ⟨catalog, report, rfl, rfl, hKinds, hOutcomes, fun hComplete => ?_⟩
      have hAccepted := hComplete.accepted ⟨"", "v1", "Template"⟩ (by simp [hKinds]) .notListable
        (by simp [hOutcomes])
      cases hAccepted

end Inventory

end ClusterInventory
