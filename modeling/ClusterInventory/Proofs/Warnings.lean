import ClusterInventory.Proofs.Announcement
import ClusterInventory.Proofs.Interference

/-! # What the log tells of errors

A fetch warns of every error that it meets, once and in the order of the errors, and of nothing else:
of the groups that cannot be discovered, and then of the list calls that fail. The report has the
same texts. The last line of the fetch command counts what is in the report.
-/

namespace ClusterInventory

/-! ## Warnings -/

def warnings (log : List Record) : List Record := log.filter fun line => line.level = .warn

/-- What is said of a group that cannot be discovered, both in the log and in the report. -/
def groupFailure (name error : String) : String :=
  "API group '" ++ (if name = "" then "core" else name) ++ "': " ++ error

def groupWarning (name error : String) : Record :=
  Component.discovery.record .warn ("Discovery error for " ++ groupFailure name error)

def clusterWarning (name error : String) : Record :=
  Component.clusters.record .warn ("Discovery error for cluster '" ++ name ++ "': " ++ error)

def callWarning (r : Resource) (error : String) : Record :=
  Component.fetching.record .warn
    ("Cannot list " ++ r.plural ++ " (" ++ r.apiVersion ++ "): " ++ error)

def warning? {α : Type} (line : String → Record) : Except RequestError α → Option Record
  | .ok _ => none
  | .error e => some (line e.message)

def Outcome.warning? : Outcome → Option Record
  | .failed r error => some (callWarning r error)
  | .listed .. => none
  | .skipped .. => none

theorem warnings_append (log more : List Record) :
    warnings (log ++ more) = warnings log ++ warnings more :=
  List.filter_append log more

theorem warnings_eq_nil {log : List Record} (h : ∀ line ∈ log, line.level ≠ .warn) :
    warnings log = [] :=
  List.filter_eq_nil_iff.mpr fun line hLine => by simpa using h line hLine

theorem warnings_map {α : Type} {line : α → Record} {told? : α → Option Record}
    (h : ∀ a, warnings [line a] = (told? a).toList) (items : List α) :
    warnings (items.map line) = items.filterMap told? := by
  induction items with
  | nil => rfl
  | cons a rest ih =>
    rw [List.map_cons, ← List.singleton_append, warnings_append, h, ih, List.filterMap_cons]
    cases told? a <;> rfl

/-! ## The lines of a fetch -/

theorem warnings_findingRecord (finding : Finding) :
    warnings [findingRecord finding] = (warning? (groupWarning finding.1) finding.2).toList := by
  obtain ⟨name, _ | g⟩ := finding
  · -- The line begins before the text that it shares with the report.
    have hText : "Discovery error for API group '" = "Discovery error for " ++ "API group '" := rfl
    simp only [findingRecord, hText, warning?, groupWarning, groupFailure, Catalog.groupLabel,
      String.append_assoc]
    rfl
  · rfl

theorem Listing.warnings_record (filter : Filter) (l : Listing) :
    warnings [l.record filter] = (l.outcome filter).warning?.toList := by
  unfold record outcome
  cases l.answer <;> rfl

theorem Listing.warning?_outcome (filter : Filter) (l : Listing) :
    (l.outcome filter).warning? = warning? (callWarning l.resource) l.answer := by
  unfold outcome
  cases l.answer <;> rfl

theorem level_of_skipRecord? {skip : Kind × SkipReason} {line : Record}
    (h : skipRecord? skip = some line) : line.level = .debug := by
  unfold skipRecord? at h
  split at h
  · rw [← Option.some.inj h]
    rfl
  · cases h

namespace Pass

variable (filter : Filter) (p : Pass)

theorem filterMap_warning?_outcomes :
    (p.report filter).outcomes.filterMap Outcome.warning? =
      p.listings.filterMap fun l => (l.outcome filter).warning? := by
  have hSkipped : p.skipped.filterMap
      (Outcome.warning? ∘ fun s => Outcome.skipped s.1 s.2) = [] :=
    List.filterMap_eq_nil_iff.mpr fun _ _ => rfl
  rw [report, List.filterMap_append, List.filterMap_map, List.filterMap_map, hSkipped,
    List.nil_append]
  rfl

/-- A pass warns of the list calls that its report has as failed. -/
theorem warnings_log :
    warnings (p.log filter) = (p.report filter).outcomes.filterMap Outcome.warning? := by
  have hSkipped : warnings (p.skipped.filterMap skipRecord?) = [] := by
    refine warnings_eq_nil fun line hLine => ?_
    obtain ⟨skip, _, hSkip⟩ := List.mem_filterMap.mp hLine
    rw [level_of_skipRecord? hSkip]
    decide
  rw [log, warnings_append, hSkipped, List.nil_append, filterMap_warning?_outcomes]
  exact warnings_map (Listing.warnings_record filter) p.listings

/-- Where the lister answers each resource by itself, the failures are those of its answers. -/
theorem filterMap_warning?_ofAnswers (mapper : Mapper)
    (answer : Resource → Except RequestError (List Object)) (kinds : List Kind) :
    let report := (run mapper (.ofAnswers answer) kinds filter).report filter
    report.outcomes.filterMap Outcome.warning? =
      report.attempted.filterMap fun r => warning? (callWarning r) (answer r) := by
  simp only [filterMap_warning?_outcomes, attempted_report, calls, run, Listing.run_ofAnswers,
    Listing.ofAnswers, List.filterMap_map, List.map_map, Listing.warning?_outcome]
  rfl

end Pass

/-- A kind is said to be unavailable with the error of its own group. -/
theorem Catalog.mapper_answers_eq_unavailable_iff {names : List String}
    {answer : String → Except RequestError ApiGroup} (kind : Kind) (text : String) :
    (ofFindings (names.map fun name => (name, answer name))).mapper kind =
        .error (.discoveryUnavailable text) ↔
      kind.group ∈ names ∧ ∃ e, answer kind.group = .error e ∧
        text = groupFailure kind.group e.message := by
  simp only [mapper_eq_unavailable_iff, get?_failed_answers_iff]
  constructor
  · rintro ⟨_, ⟨hGroup, e, hAnswer, rfl⟩, rfl⟩
    exact ⟨hGroup, e, hAnswer, rfl⟩
  · rintro ⟨hGroup, e, hAnswer, rfl⟩
    exact ⟨_, ⟨hGroup, e, hAnswer, rfl⟩, rfl⟩

/-! ## Fetches from a cluster -/

/-- What the log and the report of a fetch tell of the errors on its way. The groups are asked for
in the order of `names`, each with its `answer`; `list` is the answer to a list call. -/
structure Logged.Tells (fetched : Logged Report) (names : List String)
    (answer : String → Except RequestError ApiGroup)
    (list : Resource → Except RequestError (List Object)) (kinds : List Kind) (filter : Filter) :
    Prop where
  warnings : warnings fetched.log =
    (names.filterMap fun name => warning? (groupWarning name) (answer name)) ++
      fetched.value.outcomes.filterMap Outcome.warning?
  calls : fetched.value.outcomes.filterMap Outcome.warning? =
    fetched.value.attempted.filterMap fun r => warning? (callWarning r) (list r)
  quotes : ∀ kind text,
    .skipped kind (.unmapped (.discoveryUnavailable text)) ∈ fetched.value.outcomes ↔
      kind ∈ kinds ∧ Filter.Permitted filter.selectKinds filter.ignoreKinds kind.name ∧
        kind.group ∈ names ∧ ∃ e, answer kind.group = .error e ∧
          text = groupFailure kind.group e.message
  warned : ∀ kind text,
    .skipped kind (.unmapped (.discoveryUnavailable text)) ∈ fetched.value.outcomes →
      Component.discovery.record .warn ("Discovery error for " ++ text) ∈ fetched.log

structure Logged.TellsOutage (fetched : Logged Report) (cluster : String) (e : RequestError)
    (kinds : List Kind) (filter : Filter) : Prop where
  warnings : warnings fetched.log = [clusterWarning cluster e.message]
  calls : fetched.value.attempted = []
  quotes : ∀ kind text,
    .skipped kind (.unmapped (.discoveryUnavailable text)) ∈ fetched.value.outcomes ↔
      kind ∈ kinds ∧ Filter.Permitted filter.selectKinds filter.ignoreKinds kind.name ∧
        text = e.message

namespace Cluster

variable (c : Cluster) (kinds : List Kind) (filter : Filter) (past : List String)

theorem log_discover :
    (c.discover past).1.log =
      match (c.server.survey past).1 with
      | .ok findings => findings.map findingRecord
      | .error _ => [] := by
  unfold discover
  simp only [Exchange.bind_apply]
  cases (c.server.survey past).1 <;> rfl

theorem log_fetchObjects :
    (c.fetchObjects kinds filter past).1.log =
      (match (c.discover past).1.value with
        | .ok _ => (c.discover past).1.log
        | .error e => [clusterWarning c.name e.message]) ++
      (Pass.run (Mapper.ofDiscovery (c.discover past).1.value) (c.lister (c.discover past).2) kinds
        filter).log filter := by
  unfold fetchObjects
  simp only [Exchange.bind_apply]
  rcases c.discover past with ⟨⟨value, log⟩, after⟩
  cases value <;> rfl

/-- A fetch warns of what its own survey has met, and then of the failures in its report. -/
theorem warnings_fetchObjects :
    warnings (c.fetchObjects kinds filter past).1.log =
      (match (c.server.survey past).1 with
        | .ok findings => findings.filterMap fun f => warning? (groupWarning f.1) f.2
        | .error e => [clusterWarning c.name e.message]) ++
      (c.fetchObjects kinds filter past).1.value.outcomes.filterMap Outcome.warning? := by
  rw [log_fetchObjects, (c.fetchObjects_eq kinds filter past).1, warnings_append,
    Pass.warnings_log, log_discover, discover_value_eq]
  congr 1
  cases (c.server.survey past).1 with
  | ok findings => exact warnings_map warnings_findingRecord findings
  | error e => rfl

theorem lister_eq_ofAnswers {c : Cluster} (h : c.server.Steady) (now past : List String) :
    c.lister now = .ofAnswers fun r => (c.server.list r past).1 := by
  funext earlier r
  exact (Server.steady_get h _ _ _).value_eq _ _

theorem tells_of_serves {c : Cluster} {names : List String}
    {answer : String → Except RequestError ApiGroup} (hSteady : c.server.Steady)
    (hServes : c.server.Serves names answer) (kinds : List Kind) (filter : Filter)
    (past : List String) :
    (c.fetchObjects kinds filter past).1.Tells ("" :: names) answer
      (fun r => (c.server.list r past).1) kinds filter := by
  have hWarnings := c.warnings_fetchObjects kinds filter past
  have hReport := (c.fetchObjects_eq kinds filter past).1
  rw [hServes.survey_yields past] at hWarnings
  rw [discover_eq_of_serves hServes past, lister_eq_ofAnswers hSteady _ past] at hReport
  generalize c.fetchObjects kinds filter past = fetched at hWarnings hReport ⊢
  simp only [List.filterMap_map] at hWarnings
  -- The table of failed groups has one error for a name, and that is the error of every line about
  -- it, however often the group is announced.
  have hQuotes : ∀ kind text,
      .skipped kind (.unmapped (.discoveryUnavailable text)) ∈ fetched.1.value.outcomes ↔
        kind ∈ kinds ∧ Filter.Permitted filter.selectKinds filter.ignoreKinds kind.name ∧
          kind.group ∈ "" :: names ∧ ∃ e, answer kind.group = .error e ∧
            text = groupFailure kind.group e.message := by
    intro kind text
    rw [hReport, ← Catalog.mapper_answers_eq_unavailable_iff]
    exact unmapped_mem_outcomes_iff _ _ kinds filter kind _
  refine ⟨hWarnings, ?_, hQuotes, ?_⟩
  · rw [hReport]
    exact Pass.filterMap_warning?_ofAnswers filter _ _ kinds
  · intro kind text hOutcome
    obtain ⟨-, -, hGroup, e, hAnswer, rfl⟩ := (hQuotes kind text).mp hOutcome
    have hWarned : groupWarning kind.group e.message ∈ warnings fetched.1.log := by
      rw [hWarnings]
      refine List.mem_append_left _ (List.mem_filterMap.mpr ⟨kind.group, hGroup, ?_⟩)
      rw [Function.comp_apply, hAnswer]
      rfl
    exact List.mem_of_mem_filter hWarned

theorem tellsOutage_of_groupList {c : Cluster} {e : RequestError} {past : List String}
    (h : (c.server.groupList past).1 = .error e) (kinds : List Kind) (filter : Filter) :
    (c.fetchObjects kinds filter past).1.TellsOutage c.name e kinds filter := by
  have hFound := (degrades_of_groupList h kinds filter).discover
  have hSurvey : (c.server.survey past).1 = .error e := by
    unfold Server.survey
    simp only [Exchange.bind_apply, h]
    rfl
  have hWarnings := c.warnings_fetchObjects kinds filter past
  have hReport := (c.fetchObjects_eq kinds filter past).1
  rw [hSurvey] at hWarnings
  rw [hFound, Mapper.ofDiscovery] at hReport
  generalize c.fetchObjects kinds filter past = fetched at hWarnings hReport ⊢
  refine ⟨?_, ?_, ?_⟩
  · rw [hWarnings, hReport, Pass.filterMap_warning?_outcomes, Pass.run_unavailable]
    rfl
  · rw [hReport, Pass.attempted_report, Pass.run_unavailable]
    rfl
  · intro kind text
    rw [hReport]
    refine (unmapped_mem_outcomes_iff _ _ kinds filter kind _).trans ?_
    simp [Mapper.unavailable, eq_comm]

end Cluster

/-! ## The closing line -/

inductive Outcome.Tally : List Outcome → Nat → Nat → Nat → Prop
  | nil : Outcome.Tally [] 0 0 0
  | listed {outcomes : List Outcome} {listed skipped failed : Nat} (r : Resource) (count kept : Nat)
      (h : Outcome.Tally outcomes listed skipped failed) :
      Outcome.Tally (.listed r count kept :: outcomes) (listed + 1) skipped failed
  | skipped {outcomes : List Outcome} {listed skipped failed : Nat} (kind : Kind)
      (reason : SkipReason) (h : Outcome.Tally outcomes listed skipped failed) :
      Outcome.Tally (.skipped kind reason :: outcomes) listed (skipped + 1) failed
  | failed {outcomes : List Outcome} {listed skipped failed : Nat} (r : Resource) (error : String)
      (h : Outcome.Tally outcomes listed skipped failed) :
      Outcome.Tally (.failed r error :: outcomes) listed skipped (failed + 1)

theorem Report.tally_outcomes (report : Report) :
    Outcome.Tally report.outcomes report.listedCount report.skippedCount report.failedCount := by
  unfold listedCount skippedCount failedCount
  induction report.outcomes with
  | nil => exact .nil
  | cons o rest ih =>
    simp only [List.countP_cons]
    cases o with
    | listed r count kept => exact .listed r count kept ih
    | skipped kind reason => exact .skipped kind reason ih
    | failed r error => exact .failed r error ih

namespace Inventory

def Closes (report : Report) (log : List Record) : Prop :=
  ∃ earlier listed skipped failed, Outcome.Tally report.outcomes listed skipped failed ∧
    log = earlier ++ [Component.commands.record .info
      ("Fetched " ++ toString report.objects.length ++ " objects: " ++ toString listed ++
        " resources listed, " ++ toString skipped ++ " skipped, " ++ toString failed ++ " failed")]

theorem level_of_outcomeRecord? {o : Outcome} {line : Record} (h : outcomeRecord? o = some line) :
    line.level = .debug := by
  cases o with
  | listed r count kept =>
    rw [← Option.some.inj h]
    rfl
  | skipped kind reason =>
    rw [← Option.some.inj h]
    rfl
  | failed r error => cases h

theorem warnings_report (report : Report) :
    warnings (report.outcomes.filterMap outcomeRecord? ++ [summary report]) = [] := by
  refine warnings_eq_nil fun line hLine => ?_
  rcases List.mem_append.mp hLine with hOutcome | hSummary
  · obtain ⟨o, _, hLine⟩ := List.mem_filterMap.mp hOutcome
    rw [level_of_outcomeRecord? hLine]
    decide
  · rw [List.mem_singleton.mp hSummary]
    nofun

section Fetch

variable (c : Cluster) (config : Config) (arguments : FetchArguments) (past : List String)

theorem log_fetch {report : Report}
    (h : (collect c config arguments past).1.value = .ok report) :
    (fetch c config arguments past).1.log = (collect c config arguments past).1.log ++
      (report.outcomes.filterMap outcomeRecord? ++ [summary report]) := by
  unfold fetch
  simp only [Exchange.bind_apply, h]
  exact List.append_assoc ..

theorem closes_fetch {report : Report}
    (h : (collect c config arguments past).1.value = .ok report) :
    Closes report (fetch c config arguments past).1.log := by
  have hLog := log_fetch c config arguments past h
  rw [← List.append_assoc] at hLog
  exact ⟨_, _, _, _, report.tally_outcomes, hLog⟩

/-- A fetch of kinds that are asked for has the report and the warnings of the fetch from the
cluster. -/
theorem fetch_eq_of_requested {kinds : List Kind}
    (h : requestedKinds config arguments = some kinds) :
    let fetched := (c.fetchObjects kinds (config.filters.merge arguments.filter) past).1
    (collect c config arguments past).1.value = .ok fetched.value ∧
      warnings (fetch c config arguments past).1.log = warnings fetched.log := by
  intro fetched
  have hCollect : (collect c config arguments past).1.value = .ok fetched.value ∧
      ∃ start : Record, start.level = .info ∧
        (collect c config arguments past).1.log = start :: fetched.log := by
    unfold collect
    simp only [h, Exchange.bind_apply, Exchange.pure_apply]
    exact ⟨rfl, _, rfl, rfl⟩
  obtain ⟨hValue, start, hLevel, hLog⟩ := hCollect
  refine ⟨hValue, ?_⟩
  rw [log_fetch c config arguments past hValue, warnings_append, warnings_report, List.append_nil,
    hLog]
  exact List.filter_cons_of_neg (by simp [hLevel])

end Fetch

end Inventory

/-- A fetch warns exactly of the errors that it meets: of the list of groups, or else of each group
whose discovery fails and of each failed list call, in their order. The report has the same texts,
and the fetch command ends with the numbers of its report. -/
theorem Cluster.fetchObjects_tells (c : Cluster) (hSteady : c.server.Steady) (past : List String) :
    (∀ (kinds : List Kind) (filter : Filter),
      let fetched := (c.fetchObjects kinds filter past).1
      match (c.server.groupList past).1 with
      | .error e => fetched.TellsOutage c.name e kinds filter
      | .ok groups => fetched.Tells ("" :: groups.map GroupEntry.name)
          (fun name => (c.server.discoverGroup name past).1)
          (fun r => (c.server.list r past).1) kinds filter) ∧
    ∀ (config : Config) (arguments : FetchArguments),
      let collected := (Inventory.collect c config arguments past).1
      let effect := (Inventory.fetch c config arguments past).1
      (∀ report, collected.value = .ok report → Inventory.Closes report effect.log) ∧
      ∀ kinds, Inventory.requestedKinds config arguments = some kinds →
        let fetched := (c.fetchObjects kinds (config.filters.merge arguments.filter) past).1
        collected.value = .ok fetched.value ∧ warnings effect.log = warnings fetched.log := by
  refine ⟨fun kinds filter => ?_, fun config arguments => ⟨fun report hReport => ?_, ?_⟩⟩
  · cases hGroups : (c.server.groupList past).1 with
    | error e => exact tellsOutage_of_groupList hGroups kinds filter
    | ok groups => exact tells_of_serves hSteady (hSteady.serves hGroups) kinds filter past
  · exact Inventory.closes_fetch c config arguments past hReport
  · exact fun kinds hKinds => Inventory.fetch_eq_of_requested c config arguments past hKinds

/-! ## A group and a list call that fail -/

def refusal : String := (RequestError.refused (Refusal.ofBody 404 "")).message

def deploymentKinds : List Kind := [⟨"apps", "", "Deployment"⟩, ⟨"", "", "Pod"⟩]

def deploymentResource : Resource := ⟨"apps", "v1", "apps/v1", "Deployment", "deployments"⟩

theorem fetchObjects_deployments :
    ((deployments false).fetchObjects deploymentKinds {} []).1.value =
      ⟨[], [.skipped ⟨"", "", "Pod"⟩ (.unmapped (.discoveryUnavailable (groupFailure "" refusal))),
        .failed deploymentResource refusal]⟩ := by
  have hSteady : (deployments false).server.Steady := Server.steady_ofDocuments _
  have hTarget : Uri.target? (Server.listPath deploymentResource).toList =
      some ("/apis/apps/v1/deployments".toList, some []) := by decide +kernel
  have hList : ((deployments false).server.list deploymentResource []).1 =
      .error (.refused (Refusal.ofBody 404 "")) :=
    Server.get_ofDocuments_yields_error _ hTarget (by decide +kernel) []
  have hSchedule : Schedule.ofKinds (Catalog.ofFindings (("" :: ["apps"]).map fun name =>
      (name, deploymentGroup false name))).mapper {} deploymentKinds =
        ⟨[deploymentResource], [(⟨"", "", "Pod"⟩,
          .unmapped (.discoveryUnavailable (groupFailure "" refusal)))]⟩ := rfl
  rw [((deployments false).fetchObjects_eq _ {} []).1,
    Cluster.discover_eq_of_serves (deployments_serve false),
    Cluster.lister_eq_ofAnswers hSteady _ [], Mapper.ofDiscovery, Pass.run, hSchedule,
    Listing.run_ofAnswers]
  simp [Pass.report, Listing.ofAnswers, Listing.kept, Listing.outcome, hList, refusal]

/-- The core group fails, and so does the list call for the only kind of the other group. -/
theorem fetchObjects_tells_deployments :
    let arguments : FetchArguments := { kinds := ["Deployment.apps", "Pod"] }
    let fetched := ((deployments false).fetchObjects deploymentKinds {} []).1
    (deployments false).server.Steady ∧
      Inventory.requestedKinds {} arguments = some deploymentKinds ∧
      warnings fetched.log = [groupWarning "" refusal, callWarning deploymentResource refusal] ∧
      .skipped ⟨"", "", "Pod"⟩ (.unmapped (.discoveryUnavailable (groupFailure "" refusal))) ∈
        fetched.value.outcomes ∧
      ∃ earlier, (Inventory.fetch (deployments false) {} arguments []).1.log = earlier ++
        [Component.commands.record .info
          "Fetched 0 objects: 0 resources listed, 1 skipped, 1 failed"] := by
  intro arguments
  have hSteady : (deployments false).server.Steady := Server.steady_ofDocuments _
  have hServes := deployments_serve false
  have hFetched := fetchObjects_deployments
  have hKinds : Inventory.requestedKinds {} arguments = some deploymentKinds := by decide +kernel
  have hFilter : ({} : Config).filters.merge arguments.filter = {} := rfl
  have hText : "Fetched " ++ toString 0 ++ " objects: " ++ toString 0 ++ " resources listed, " ++
      toString 1 ++ " skipped, " ++ toString 1 ++ " failed" =
        "Fetched 0 objects: 0 resources listed, 1 skipped, 1 failed" := by decide +kernel
  -- The theorem is applied to a cluster of which nothing can be evaluated any more.
  generalize deployments false = c at hSteady hServes hFetched ⊢
  obtain ⟨groups, hGroups, hNames⟩ := hServes.announces
  have hCore : (c.server.discoverGroup "" []).1 = .error (.refused (Refusal.ofBody 404 "")) :=
    hServes.answers "" List.mem_cons_self []
  have hApps : (c.server.discoverGroup "apps" []).1 =
      .ok ⟨[⟨"v1", replicaSetList.mappings⟩], none⟩ :=
    hServes.answers "apps" (by decide) []
  obtain ⟨hFetches, hCommands⟩ := c.fetchObjects_tells hSteady []
  have hTells := hFetches deploymentKinds {}
  simp only [hGroups [], hNames] at hTells
  obtain ⟨hCloses, hRequested⟩ := hCommands {} arguments
  obtain ⟨earlier, _, _, _, hTally, hLog⟩ := hCloses _ (hRequested _ hKinds).1
  rw [hFilter, hFetched] at hTally hLog
  refine ⟨hSteady, hKinds, ?_, ?_, earlier, ?_⟩
  · rw [hTells.warnings, hFetched]
    simp [hCore, hApps, warning?, List.filterMap_cons, Outcome.warning?, refusal]
  · rw [hFetched]
    exact List.mem_cons_self
  · cases hTally with
    | skipped _ _ hRest =>
      cases hRest with
      | failed _ _ hRest =>
        cases hRest
        rw [← hText]
        exact hLog

end ClusterInventory
