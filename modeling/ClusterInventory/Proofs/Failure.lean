import ClusterInventory.Proofs.Collection
import ClusterInventory.Proofs.Success

/-! # Fetches that come to nothing

A report is a total failure exactly if nothing was listed and an error is to blame: a list call that
failed, or a discovery that was unavailable for some kind. Such a report has no objects. A fetch
ends with a failure for exactly these reports, and then it writes no object.
-/

namespace ClusterInventory

namespace Report

def HasUnavailable (report : Report) : Prop :=
  ∃ kind text, .skipped kind (.unmapped (.discoveryUnavailable text)) ∈ report.outcomes

structure Barren (report : Report) : Prop where
  nothing : ¬report.HasListed
  error : report.HasFailed ∨ report.HasUnavailable

theorem hasUnavailable_iff (report : Report) :
    report.HasUnavailable ↔ ∃ o ∈ report.outcomes, o.isUnavailable = true := by
  constructor
  · rintro ⟨kind, text, hOutcome⟩
    exact ⟨_, hOutcome, rfl⟩
  · rintro ⟨o, hOutcome, hUnavailable⟩
    unfold Outcome.isUnavailable at hUnavailable
    split at hUnavailable
    · exact ⟨_, _, hOutcome⟩
    · cases hUnavailable

theorem isTotalFailure_iff_barren (report : Report) :
    report.isTotalFailure = true ↔ report.Barren := by
  rw [isTotalFailure_iff, ← hasUnavailable_iff]
  exact ⟨fun ⟨hNothing, hError⟩ => ⟨hNothing, hError⟩,
    fun hBarren => ⟨hBarren.nothing, hBarren.error⟩⟩

/-- Being barren is a matter of which outcomes there are. -/
theorem barren_congr {report other : Report}
    (h : ∀ o, o ∈ report.outcomes ↔ o ∈ other.outcomes) : report.Barren ↔ other.Barren := by
  have hListed : report.HasListed ↔ other.HasListed := by simp only [HasListed, h]
  have hFailed : report.HasFailed ↔ other.HasFailed := by simp only [HasFailed, h]
  have hUnavailable : report.HasUnavailable ↔ other.HasUnavailable := by
    simp only [HasUnavailable, h]
  constructor
  · rintro ⟨hNothing, hError⟩
    exact ⟨mt hListed.mpr hNothing, hError.imp hFailed.mp hUnavailable.mp⟩
  · rintro ⟨hNothing, hError⟩
    exact ⟨mt hListed.mp hNothing, hError.imp hFailed.mpr hUnavailable.mpr⟩

/-- The verdict on a report says that it is barren, in whatever order its outcomes stand, and is
never passed on a report with objects. -/
structure Judged (report : Report) : Prop where
  exact : report.isTotalFailure = true ↔ report.Barren
  reordered : ∀ outcomes : List Outcome, outcomes.Perm report.outcomes →
    { report with outcomes }.isTotalFailure = report.isTotalFailure
  noObjects : report.isTotalFailure = true → report.objects = []

end Report

/-! ## The pass -/

namespace Pass

variable (filter : Filter) (p : Pass)

/-- Objects come from answers only, and every answer is told of. -/
theorem objects_report_eq_nil (h : ¬(p.report filter).HasListed) :
    (p.report filter).objects = [] := by
  apply List.flatMap_eq_nil_iff.mpr
  intro l hListing
  have hOutcome : l.outcome filter ∈ (p.report filter).outcomes :=
    List.mem_append_right _ (List.mem_map_of_mem hListing)
  have hCollects := l.collects filter
  generalize l.answer = answer, l.outcome filter = outcome, l.kept filter = block at *
  cases hCollects with
  | listed hBlock => exact absurd ⟨_, _, _, hOutcome⟩ h
  | failed e => rfl

theorem judged_report : (p.report filter).Judged where
  exact := Report.isTotalFailure_iff_barren _
  reordered outcomes hPerm := by
    rw [Bool.eq_iff_iff, Report.isTotalFailure_iff_barren, Report.isTotalFailure_iff_barren]
    exact Report.barren_congr fun o => hPerm.mem_iff
  noObjects hFailure :=
    p.objects_report_eq_nil filter ((Report.isTotalFailure_iff_barren _).mp hFailure).nothing

end Pass

/-! ## The fetch command -/

def OutputFormat.blank : OutputFormat → String
  | .yaml => ""
  | .json => "[]\n"

theorem writeObjects_nil (format : OutputFormat) : writeObjects format [] = format.blank := by
  cases format <;> rfl

namespace Inventory

/-- A total failure means that nothing was listed because of errors. For such a report, and for no
other, a fetch fails for want of objects, and it writes none. -/
theorem fetch_fails_iff_barren :
    (∀ (mapper : Mapper) (lister : Lister) (kinds : List Kind) (filter : Filter),
      (fetchObjects mapper lister kinds filter).Judged) ∧
    ∀ (c : Cluster) (config : Config) (arguments : FetchArguments) (past : List String),
      let effect := (fetch c config arguments past).1
      match (collect c config arguments past).1.value with
      | .ok report =>
          report.Judged ∧
            (report.Barren ∧ effect.result = .error (.nothingFetched c.name) ∧
                effect.stdout = arguments.output.blank ∨
              ¬report.Barren ∧ effect.result = .ok ())
      | .error e => effect.result = requestFailure e ∧ effect.stdout = "" := by
  refine ⟨fun _ _ _ filter => Pass.judged_report filter _, ?_⟩
  intro c config arguments past effect
  have hCollect := (collect_eq c config arguments past).1
  have hFetch := fetch_eq c config arguments past
  cases hPass : pass? c config arguments past with
  | error e =>
    simp only [hPass, Except.map] at hCollect hFetch
    rw [hCollect]
    exact ⟨hFetch.2.1, hFetch.1⟩
  | ok pass =>
    simp only [hPass, Except.map] at hCollect hFetch
    rw [hCollect]
    obtain ⟨hStdout, hResult, -⟩ := hFetch
    have hJudged := pass.judged_report (config.filters.merge arguments.filter)
    refine ⟨hJudged, ?_⟩
    cases hFailure : (pass.report (config.filters.merge arguments.filter)).isTotalFailure with
    | true =>
      left
      refine ⟨hJudged.exact.mp hFailure, ?_, ?_⟩
      · rw [hFailure] at hResult
        exact hResult
      · have hWritten : written arguments [] = [] := by unfold written; split <;> rfl
        rw [hJudged.noObjects hFailure, hWritten, writeObjects_nil] at hStdout
        exact hStdout
    | false =>
      right
      refine ⟨fun hBarren => ?_, ?_⟩
      · rw [hJudged.exact.mpr hBarren] at hFailure
        cases hFailure
      · rw [hFailure] at hResult
        exact hResult

/-- Where the group of every kind that is asked for failed, there is nothing to write. -/
example : (fetch silent {} { kinds := ["Pod", "Node"], output := .json } []).1.stdout = "[]\n" := by
  decide +kernel

end Inventory

end ClusterInventory
