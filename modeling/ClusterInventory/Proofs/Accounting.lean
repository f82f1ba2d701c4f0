import ClusterInventory.Proofs.Schedule

/-! # What becomes of a request

A pass makes one list call for each scheduled resource, in the order of the schedule, and ends with
one outcome per requested kind: those of the skipped kinds first, and then those of the calls.
-/

namespace ClusterInventory

/-! ## List calls -/

namespace Listing

/-- The lister answers a call in the light of exactly the calls made before it. -/
theorem getElem?_run (lister : Lister) (earlier resources : List Resource) (i : Nat) :
    (run lister earlier resources)[i]? =
      resources[i]?.map fun r => ⟨r, lister (earlier ++ resources.take i) r⟩ := by
  induction resources generalizing earlier i with
  | nil => simp [run]
  | cons first rest ih =>
    cases i with
    | zero => simp [run]
    | succ i => simp [run, ih]

theorem exists_of_mem_run {lister : Lister} {earlier resources : List Resource}
    {l : Listing} (h : l ∈ run lister earlier resources) :
    ∃ asked, l.answer = lister asked l.resource := by
  obtain ⟨i, hEntry⟩ := List.mem_iff_getElem?.mp h
  rw [getElem?_run] at hEntry
  obtain ⟨r, -, rfl⟩ := Option.map_eq_some_iff.mp hEntry
  exact ⟨_, rfl⟩

@[simp] theorem map_resource_run (lister : Lister) (earlier resources : List Resource) :
    (run lister earlier resources).map resource = resources := by
  induction resources generalizing earlier with
  | nil => rfl
  | cons first rest ih => simp [run, ih]

@[simp] theorem length_run (lister : Lister) (earlier resources : List Resource) :
    (run lister earlier resources).length = resources.length := by
  rw [← List.length_map (f := resource), map_resource_run]

end Listing

@[simp] theorem Pass.calls_run (mapper : Mapper) (lister : Lister) (kinds : List Kind)
    (filter : Filter) :
    (Pass.run mapper lister kinds filter).calls =
      (Schedule.ofKinds mapper filter kinds).resources :=
  Listing.map_resource_run lister [] _

/-! ## Outcomes -/

inductive Outcome.Reports (r : Resource) :
    Except RequestError (List Object) → Outcome → Prop
  | listed (objects : List Object) (kept : Nat) :
      Outcome.Reports r (.ok objects) (.listed r objects.length kept)
  | failed (e : RequestError) : Outcome.Reports r (.error e) (.failed r e.message)

theorem Listing.outcome_reports (filter : Filter) (l : Listing) :
    Outcome.Reports l.resource l.answer (l.outcome filter) := by
  unfold outcome
  split
  · rename_i objects hAnswer
    rw [hAnswer]
    exact .listed objects _
  · rename_i e hAnswer
    rw [hAnswer]
    exact .failed e

def Outcome.resource? : Outcome → Option Resource
  | .listed r _ _ => some r
  | .skipped _ _ => none
  | .failed r _ => some r

def Report.attempted (report : Report) : List Resource :=
  report.outcomes.filterMap Outcome.resource?

theorem Listing.resource?_outcome (filter : Filter) (l : Listing) :
    (l.outcome filter).resource? = some l.resource := by
  unfold outcome
  split <;> rfl

/-- A report tells of the list calls of its pass, in their order. -/
theorem Pass.attempted_report (filter : Filter) (p : Pass) :
    (p.report filter).attempted = p.calls := by
  have hSkipped : p.skipped.filterMap
      (Outcome.resource? ∘ fun s => Outcome.skipped s.1 s.2) = [] :=
    List.filterMap_eq_nil_iff.mpr fun _ _ => rfl
  have hListings : Outcome.resource? ∘ Listing.outcome filter = some ∘ Listing.resource :=
    funext fun l => l.resource?_outcome filter
  simp only [Report.attempted, report, List.filterMap_append, List.filterMap_map, hSkipped,
    hListings, List.filterMap_eq_map, List.nil_append, calls]

theorem Pass.skipped_mem_outcomes_iff (filter : Filter) (p : Pass) (kind : Kind)
    (reason : SkipReason) :
    .skipped kind reason ∈ (p.report filter).outcomes ↔ (kind, reason) ∈ p.skipped := by
  have hListings : Outcome.skipped kind reason ∉ p.listings.map (Listing.outcome filter) := by
    intro hMember
    obtain ⟨l, _, hOutcome⟩ := List.mem_map.mp hMember
    have hResource := l.resource?_outcome filter
    rw [hOutcome] at hResource
    cases hResource
  simp [report, hListings]

/-- Every outcome is counted, and only once. -/
theorem Report.listedCount_add_skippedCount_add_failedCount (r : Report) :
    r.listedCount + r.skippedCount + r.failedCount = r.outcomes.length := by
  unfold listedCount skippedCount failedCount
  induction r.outcomes with
  | nil => rfl
  | cons o rest ih =>
    simp only [List.countP_cons, List.length_cons, ← ih]
    cases o <;> simp [Outcome.isListed, Outcome.isSkipped, Outcome.isFailed] <;> omega

/-! ## The pass -/

/-- Every requested kind has one verdict, and with it one outcome. -/
theorem fetchObjects_accounts (mapper : Mapper) (lister : Lister) (kinds : List Kind)
    (filter : Filter) :
    let report := fetchObjects mapper lister kinds filter
    let calls := (Pass.run mapper lister kinds filter).calls
    ∃ (verdicts : List Verdict) (attempts : List Outcome),
      verdicts.length = kinds.length ∧
      (∀ (i : Nat) (kind : Kind) (v : Verdict), kinds[i]? = some kind → verdicts[i]? = some v →
        Decides mapper filter (verdicts.take i) kind v) ∧
      report.outcomes =
        (Verdict.skips kinds verdicts).map (fun s => Outcome.skipped s.1 s.2) ++ attempts ∧
      calls = Verdict.resources verdicts ∧ calls.Nodup ∧ attempts.length = calls.length ∧
      (∀ (i : Nat) (r : Resource) (o : Outcome), calls[i]? = some r → attempts[i]? = some o →
        Outcome.Reports r (lister (calls.take i) r) o) ∧
      report.listedCount + report.skippedCount + report.failedCount = kinds.length := by
  intro report calls
  let verdicts := Schedule.verdicts mapper filter [] kinds
  have hSchedule : Schedule.ofKinds mapper filter kinds =
      ⟨Verdict.resources verdicts, Verdict.skips kinds verdicts⟩ :=
    Schedule.ofKinds_eq mapper filter kinds
  have hCalls : calls = Verdict.resources verdicts := by
    simp only [calls, Pass.calls_run, hSchedule]
  let attempts := (Listing.run lister [] calls).map (Listing.outcome filter)
  have hOutcomes : report.outcomes =
      (Verdict.skips kinds verdicts).map (fun s => Outcome.skipped s.1 s.2) ++ attempts := by
    simp only [report, fetchObjects, Pass.run, Pass.report, hSchedule, attempts, hCalls]
  have hAttempts : attempts.length = calls.length := by simp [attempts]
  refine ⟨verdicts, attempts, by simp [verdicts], ?_, hOutcomes, hCalls, ?_, hAttempts, ?_, ?_⟩
  · intro i kind v hKind hVerdict
    exact Schedule.verdicts_decide mapper filter [] kinds i hKind hVerdict
  · rw [show calls = _ from Pass.calls_run mapper lister kinds filter]
    exact Schedule.nodup_resources_ofKinds mapper filter kinds
  · intro i r o hCall hAttempt
    simp only [attempts, List.getElem?_map, Listing.getElem?_run, hCall, Option.map_some,
      List.nil_append, Option.some.injEq] at hAttempt
    rw [← hAttempt]
    exact Listing.outcome_reports filter ⟨r, lister (calls.take i) r⟩
  · calc
      report.listedCount + report.skippedCount + report.failedCount = report.outcomes.length :=
        report.listedCount_add_skippedCount_add_failedCount
      _ = (Verdict.skips kinds verdicts).length + (Verdict.resources verdicts).length := by
        rw [hOutcomes, List.length_append, List.length_map, hAttempts, hCalls]
      _ = kinds.length :=
        Verdict.length_skips_add_length_resources kinds verdicts (by simp [verdicts])

end ClusterInventory
