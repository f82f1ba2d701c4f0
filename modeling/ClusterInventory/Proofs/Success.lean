import ClusterInventory.Proofs.Accounting
import ClusterInventory.Proofs.Catalog
import ClusterInventory.Proofs.Command
import ClusterInventory.Proofs.Survey

/-! # When a fetch of everything succeeds

A fetch is a failure if nothing was listed and its report tells of an error: of a list call that
failed, or of a kind whose group could not be discovered. The report of a fetch of everything has
only kinds that were discovered, so that it is silent about a failed group that no discovered kind
belongs to. Exactly then an error may pass for success.
-/

namespace ClusterInventory

/-! ## Total failures -/

namespace Report

def HasListed (report : Report) : Prop := ∃ r listed kept, .listed r listed kept ∈ report.outcomes

def HasFailed (report : Report) : Prop := ∃ r error, .failed r error ∈ report.outcomes

variable (report : Report)

theorem hasListed_iff : report.HasListed ↔ ∃ o ∈ report.outcomes, o.isListed = true := by
  constructor
  · rintro ⟨r, listed, kept, hOutcome⟩
    exact ⟨_, hOutcome, rfl⟩
  · rintro ⟨o, hOutcome, hListed⟩
    cases o with
    | listed r listed kept => exact ⟨r, listed, kept, hOutcome⟩
    | skipped kind reason => cases hListed
    | failed r error => cases hListed

theorem hasFailed_iff : report.HasFailed ↔ ∃ o ∈ report.outcomes, o.isFailed = true := by
  constructor
  · rintro ⟨r, error, hOutcome⟩
    exact ⟨_, hOutcome, rfl⟩
  · rintro ⟨o, hOutcome, hFailed⟩
    cases o with
    | listed r listed kept => cases hFailed
    | skipped kind reason => cases hFailed
    | failed r error => exact ⟨r, error, hOutcome⟩

theorem listedCount_pos_iff : 0 < report.listedCount ↔ report.HasListed := by
  rw [hasListed_iff, listedCount, List.countP_pos_iff]

theorem failedCount_pos_iff : 0 < report.failedCount ↔ report.HasFailed := by
  rw [hasFailed_iff, failedCount, List.countP_pos_iff]

theorem countP_isAttempted_outcomes :
    report.outcomes.countP Outcome.isAttempted = report.listedCount + report.failedCount := by
  unfold listedCount failedCount
  induction report.outcomes with
  | nil => rfl
  | cons o rest ih =>
    simp only [List.countP_cons, ih]
    cases o <;> simp [Outcome.isAttempted, Outcome.isListed, Outcome.isFailed] <;> omega

theorem isTotalFailure_iff :
    report.isTotalFailure = true ↔
      ¬report.HasListed ∧
        (report.HasFailed ∨ ∃ o ∈ report.outcomes, o.isUnavailable = true) := by
  have hListed := report.listedCount_pos_iff
  have hFailed := report.failedCount_pos_iff
  unfold isTotalFailure
  simp only [countP_isAttempted_outcomes]
  split
  · rw [beq_iff_eq]
    constructor
    · intro hCounts
      exact ⟨fun h => by have := hListed.mpr h; omega, .inl (hFailed.mp (by omega))⟩
    · rintro ⟨hNothing, _⟩
      have := mt hListed.mp hNothing
      omega
  · have hNothing : ¬report.HasListed := fun h => by have := hListed.mpr h; omega
    have hNoFailure : ¬report.HasFailed := fun h => by have := hFailed.mpr h; omega
    simp only [List.any_eq_true, hNothing, hNoFailure, not_false_eq_true, true_and, false_or]

end Report

/-! ## Unavailable kinds -/

/-- A kind that the filter lets pass is skipped with the very error that its mapping gives. -/
theorem unmapped_mem_outcomes_iff (mapper : Mapper) (lister : Lister) (kinds : List Kind)
    (filter : Filter) (kind : Kind) (e : MappingError) :
    .skipped kind (.unmapped e) ∈ (fetchObjects mapper lister kinds filter).outcomes ↔
      kind ∈ kinds ∧ Filter.Permitted filter.selectKinds filter.ignoreKinds kind.name ∧
        mapper kind = .error e := by
  unfold fetchObjects
  rw [Pass.skipped_mem_outcomes_iff]
  refine (Schedule.mem_skipped_ofKinds_iff mapper filter kinds kind (.unmapped e)).trans ?_
  constructor
  · rintro ⟨before, hBefore, hReason⟩
    cases (mapper.resolve_eq_iff filter _ kind _).mp hReason with
    | unmapped hPasses hMapped => exact ⟨hBefore.subset (by simp), hPasses, hMapped⟩
  · rintro ⟨hKind, hPasses, hMapped⟩
    obtain ⟨before, after, rfl⟩ := List.append_of_mem hKind
    exact ⟨before, ⟨after, by simp⟩,
      (mapper.resolve_eq_iff filter _ kind _).mpr (.unmapped hPasses hMapped)⟩

theorem exists_isUnavailable_iff (mapper : Mapper) (lister : Lister) (kinds : List Kind)
    (filter : Filter) :
    (∃ o ∈ (fetchObjects mapper lister kinds filter).outcomes, o.isUnavailable = true) ↔
      ∃ kind ∈ kinds, Filter.Permitted filter.selectKinds filter.ignoreKinds kind.name ∧
        ∃ text, mapper kind = .error (.discoveryUnavailable text) := by
  constructor
  · rintro ⟨o, hOutcome, hUnavailable⟩
    cases o with
    | listed => cases hUnavailable
    | failed => cases hUnavailable
    | skipped kind reason =>
      unfold Outcome.isUnavailable at hUnavailable
      split at hUnavailable
      · rename_i text hSkipped
        rw [hSkipped] at hOutcome
        obtain ⟨hKind, hPasses, hMapped⟩ := (unmapped_mem_outcomes_iff ..).mp hOutcome
        exact ⟨_, hKind, hPasses, text, hMapped⟩
      · cases hUnavailable
  · rintro ⟨kind, hKind, hPasses, text, hMapped⟩
    exact ⟨_, (unmapped_mem_outcomes_iff ..).mpr ⟨hKind, hPasses, hMapped⟩, rfl⟩

namespace Catalog

theorem mapper_eq_discoveryUnavailable_iff (findings : List Finding) (kind : Kind) :
    (∃ text, (ofFindings findings).mapper kind = .error (.discoveryUnavailable text)) ↔
      Fails findings kind.group := by
  simp only [mapper_eq_unavailable_iff, get?_failed_ofFindings_eq_some_iff,
    ← exists_isLast_failures_iff]
  constructor
  · rintro ⟨_, _, ⟨e, hLast, _⟩, _⟩
    exact ⟨e, hLast⟩
  · rintro ⟨e, hLast⟩
    exact ⟨_, _, ⟨e, hLast, rfl⟩, rfl⟩

def NamesFailed (findings : List Finding) : Prop :=
  ∃ kind ∈ (ofFindings findings).listableKinds, Fails findings kind.group

variable (findings : List Finding) (lister : Lister) (filter : Filter)

/-- A report over the discovered kinds tells of a failed group only through such a kind. -/
theorem exists_isUnavailable_sweep_iff (hSelect : filter.selectKinds = [])
    (hIgnore : filter.ignoreKinds = []) :
    (∃ o ∈ (((ofFindings findings).sweep lister filter).report filter).outcomes,
      o.isUnavailable = true) ↔ NamesFailed findings := by
  refine (exists_isUnavailable_iff _ lister _ filter).trans ?_
  simp only [hSelect, hIgnore, Filter.permitted_nil, true_and,
    mapper_eq_discoveryUnavailable_iff, NamesFailed]

theorem isTotalFailure_sweep_eq_false_iff {report : Report}
    (hReport : ((ofFindings findings).sweep lister filter).report filter = report)
    (hSelect : filter.selectKinds = []) (hIgnore : filter.ignoreKinds = []) :
    report.isTotalFailure = false ↔
      report.HasListed ∨ ¬report.HasFailed ∧ ¬NamesFailed findings := by
  have hUnavailable := exists_isUnavailable_sweep_iff findings lister filter hSelect hIgnore
  rw [hReport] at hUnavailable
  rw [← Bool.not_eq_true, report.isTotalFailure_iff, hUnavailable]
  by_cases hListed : report.HasListed
  · simp [hListed]
  · simp [hListed, not_or]

/-- Without a group that answered there is no kind, and so no outcome. -/
theorem outcomes_sweep_eq_nil (h : ∀ finding ∈ findings, ∃ e, finding.2 = .error e) :
    (((ofFindings findings).sweep lister filter).report filter).outcomes = [] := by
  have hKinds : (ofFindings findings).listableKinds = [] := by
    rw [listableKinds, mappings, groups_ofFindings_eq_nil h]
    rfl
  rw [sweep, hKinds]
  rfl

end Catalog

/-! ## The fetch command -/

def Filter.ofNamespaces (select ignore : List String) : Filter where
  selectNamespaces := select
  ignoreNamespaces := ignore

namespace Inventory

def ErrorFree (findings : List Finding) (report : Report) : Prop :=
  (∀ group, ¬Catalog.Fails findings group) ∧ ¬report.HasFailed

/-- A report that tells of no error is owed to none exactly if a failed group always shows. -/
theorem errorFree_iff_shows (findings : List Finding) (report : Report) :
    (report.HasListed ∨ ¬report.HasFailed ∧ ¬Catalog.NamesFailed findings →
        report.HasListed ∨ ErrorFree findings report) ↔
      ((∃ group, Catalog.Fails findings group) →
        report.HasListed ∨ report.HasFailed ∨ Catalog.NamesFailed findings) := by
  constructor
  · rintro hFree ⟨group, hFails⟩
    by_cases hFailed : report.HasFailed
    · exact .inr (.inl hFailed)
    by_cases hNamed : Catalog.NamesFailed findings
    · exact .inr (.inr hNamed)
    rcases hFree (.inr ⟨hFailed, hNamed⟩) with hListed | ⟨hNone, _⟩
    · exact .inl hListed
    · exact absurd hFails (hNone group)
  · rintro hShows (hListed | ⟨hNoFailure, hUnnamed⟩)
    · exact .inl hListed
    by_cases hFails : ∃ group, Catalog.Fails findings group
    · rcases hShows hFails with hListed | hFailed | hNamed
      · exact .inl hListed
      · exact absurd hFailed hNoFailure
      · exact absurd hNamed hUnnamed
    · exact .inr ⟨not_exists.mp hFails, hNoFailure⟩

/-- A fetch of everything fails if the list of groups cannot be read. Otherwise it succeeds exactly
if something was listed or the report tells of no error. A success is then never owed to an error
exactly if a failed group always shows: beside a list call, or in a discovered kind of such a group.
It does not show where every group fails. -/
theorem fetch_everything_succeeds_iff (c : Cluster)
    (select ignore moreSelect moreIgnore : List String) (managedFields : Bool)
    (output : OutputFormat) (past : List String) :
    let config : Config := { filters := .ofNamespaces select ignore }
    let arguments : FetchArguments :=
      { filter := .ofNamespaces moreSelect moreIgnore, managedFields, output }
    let result := (fetch c config arguments past).1.result
    match (c.server.survey past).1 with
    | .error e => result = requestFailure e
    | .ok findings => ∃ report, (collect c config arguments past).1.value = .ok report ∧
        (result = .ok () ∨ result = .error (.nothingFetched c.name)) ∧
        (result = .ok () ↔
          report.HasListed ∨ ¬report.HasFailed ∧ ¬Catalog.NamesFailed findings) ∧
        ((result = .ok () → report.HasListed ∨ ErrorFree findings report) ↔
          ((∃ group, Catalog.Fails findings group) →
            report.HasListed ∨ report.HasFailed ∨ Catalog.NamesFailed findings)) ∧
        ((∀ finding ∈ findings, ∃ e, finding.2 = .error e) →
          result = .ok () ∧ report.outcomes = []) := by
  intro config arguments result
  have hFetch := fetch_eq c config arguments past
  have hCollect := (collect_eq c config arguments past).1
  rw [pass?_eq_map c config arguments past rfl, c.discover_value_eq] at hFetch hCollect
  cases hSurvey : (c.server.survey past).1 with
  | error e =>
    simp only [hSurvey, Except.map] at hFetch
    exact hFetch.2.1
  | ok findings =>
    simp only [hSurvey, Except.map] at hFetch hCollect
    obtain ⟨-, hResult, -⟩ := hFetch
    refine ⟨_, hCollect, ?_⟩
    have hNothing := Catalog.outcomes_sweep_eq_nil findings (c.lister (c.discover past).2)
      (config.filters.merge arguments.filter)
    generalize hReport : Pass.report _ _ = report at hResult hNothing ⊢
    have hTotal := Catalog.isTotalFailure_sweep_eq_false_iff findings _ _ hReport rfl rfl
    have hSuccess : result = .ok () ↔ report.isTotalFailure = false := by
      rw [show result = _ from hResult]
      cases report.isTotalFailure <;> simp
    refine ⟨?_, hSuccess.trans hTotal, ?_, ?_⟩
    · rw [show result = _ from hResult]
      cases report.isTotalFailure with
      | true => exact .inr rfl
      | false => exact .inl rfl
    · rw [hSuccess, hTotal]
      exact errorFree_iff_shows findings report
    · intro hFails
      have hOutcomes := hNothing hFails
      refine ⟨?_, hOutcomes⟩
      simp [hSuccess, Report.isTotalFailure, hOutcomes]

/-! ## Groups that all fail -/

/-- The list of groups can be read, and the core group cannot. -/
def silent : Cluster where
  name := "test"
  server := { answer := fun _ path =>
    if path = "/apis" then .reply 200 (Json.object [("groups", .array [])]).compact
    else .reply 503 "" }

/-- The only discovery of a group ends with an error, and the fetch is a success that has listed
nothing. -/
theorem fetch_silent_succeeds :
    ∃ findings report, (silent.server.survey []).1 = .ok findings ∧
      (collect silent {} {} []).1.value = .ok report ∧ Catalog.Fails findings "" ∧
      (fetch silent {} {} []).1.result = .ok () ∧ ¬report.HasListed := by
  have hRun : (silent.server.survey []).1.toOption.map
        (List.map fun finding => (finding.1, finding.2.toBool)) = some [("", false)] ∧
      (collect silent {} {} []).1.value.toOption.map Report.outcomes = some [] ∧
      (fetch silent {} {} []).1.result.toOption = some () := by decide +kernel
  obtain ⟨hFindings, hOutcomes, hResult⟩ := hRun
  -- From here on nothing is evaluated any more.
  generalize (fetch silent {} {} []).1.result = result at hResult ⊢
  generalize (silent.server.survey []).1 = surveyed at hFindings ⊢
  generalize (collect silent {} {} []).1.value = collected at hOutcomes ⊢
  cases surveyed with
  | error e => cases hFindings
  | ok findings =>
    cases collected with
    | error e => cases hOutcomes
    | ok report =>
      have hFindings := List.map_eq_singleton_iff.mp (Option.some.inj hFindings)
      have hOutcomes := Option.some.inj hOutcomes
      obtain ⟨⟨name, answer⟩, rfl, hFinding⟩ := hFindings
      obtain ⟨rfl, hAnswer⟩ := Prod.mk.inj hFinding
      refine ⟨_, report, rfl, rfl, ?_, ?_, ?_⟩
      · cases answer with
        | ok g => cases hAnswer
        | error e => exact ⟨e, List.mem_singleton_self _⟩
      · cases result with
        | ok _ => rfl
        | error failure => cases hResult
      · rintro ⟨r, listed, kept, hListed⟩
        rw [hOutcomes] at hListed
        cases hListed

end Inventory

end ClusterInventory
