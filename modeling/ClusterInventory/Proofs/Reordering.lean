import ClusterInventory.Proofs.Interference
import ClusterInventory.Proofs.Success

/-! # Orders and repetitions of a request

Which resources are listed depends only on the set of the requested kinds. Where the lister answers
each resource by itself, another order of the request or a kind that is asked for twice shows only
in the order of what is collected, and in which of the kinds counts as the duplicate.
-/

namespace ClusterInventory

structure Report.Alike (report other : Report) : Prop where
  objects : report.objects.Perm other.objects
  attempts : (report.outcomes.filter Outcome.isAttempted).Perm
    (other.outcomes.filter Outcome.isAttempted)
  listedCount : report.listedCount = other.listedCount
  failedCount : report.failedCount = other.failedCount
  isTotalFailure : report.isTotalFailure = other.isTotalFailure

theorem Report.countP_eq_countP_attempts (report : Report) {p : Outcome → Bool}
    (h : ∀ o, p o = true → o.isAttempted = true) :
    report.outcomes.countP p = (report.outcomes.filter Outcome.isAttempted).countP p := by
  rw [List.countP_filter]
  apply List.countP_congr
  intro o _
  simp only [Bool.and_eq_true]
  exact ⟨fun hOutcome => ⟨hOutcome, h o hOutcome⟩, And.left⟩

/-! ## Two requests -/

section SameKinds

variable {kinds others : List Kind} (hSame : ∀ kind, kind ∈ kinds ↔ kind ∈ others)
  (mapper : Mapper) (filter : Filter)

include hSame

theorem Schedule.perm_resources_ofKinds :
    (ofKinds mapper filter kinds).resources.Perm (ofKinds mapper filter others).resources := by
  have hNodup := nodup_resources_ofKinds mapper filter
  rw [List.perm_ext_iff_of_nodup (hNodup kinds) (hNodup others)]
  intro r
  rw [mem_resources_ofKinds_iff, mem_resources_ofKinds_iff]
  simp only [hSame]

theorem Pass.perm_listings_run (answer : Resource → Except RequestError (List Object)) :
    (Pass.run mapper (.ofAnswers answer) kinds filter).listings.Perm
      (Pass.run mapper (.ofAnswers answer) others filter).listings := by
  simp only [run, Listing.run_ofAnswers, Listing.ofAnswers]
  exact (Schedule.perm_resources_ofKinds hSame mapper filter).map _

/-- The same kinds come to the same objects and the same list calls, whatever their order and
however often each of them is asked for. -/
theorem fetchObjects_alike (answer : Resource → Except RequestError (List Object)) :
    Report.Alike (fetchObjects mapper (.ofAnswers answer) kinds filter)
      (fetchObjects mapper (.ofAnswers answer) others filter) := by
  have hListings := Pass.perm_listings_run hSame mapper filter answer
  have hUnavailable := exists_isUnavailable_iff mapper (.ofAnswers answer) kinds filter
  have hOther := exists_isUnavailable_iff mapper (.ofAnswers answer) others filter
  simp only [hSame, ← hOther] at hUnavailable
  unfold fetchObjects at hUnavailable ⊢
  generalize Pass.run mapper (.ofAnswers answer) kinds filter = pass at *
  generalize Pass.run mapper (.ofAnswers answer) others filter = otherPass at *
  have hAttempts : ((pass.report filter).outcomes.filter Outcome.isAttempted).Perm
      ((otherPass.report filter).outcomes.filter Outcome.isAttempted) := by
    rw [Pass.filter_isAttempted_outcomes, Pass.filter_isAttempted_outcomes]
    exact hListings.map _
  have hCount : ∀ p : Outcome → Bool, (∀ o, p o = true → o.isAttempted = true) →
      (pass.report filter).outcomes.countP p = (otherPass.report filter).outcomes.countP p := by
    intro p hAttempted
    rw [Report.countP_eq_countP_attempts _ hAttempted, hAttempts.countP_eq,
      ← Report.countP_eq_countP_attempts _ hAttempted]
  have hListed : (pass.report filter).listedCount = (otherPass.report filter).listedCount :=
    hCount _ fun o hOutcome => by simp [Outcome.isAttempted, hOutcome]
  have hFailed : (pass.report filter).failedCount = (otherPass.report filter).failedCount :=
    hCount _ fun o hOutcome => by simp [Outcome.isAttempted, hOutcome]
  refine ⟨hListings.flatMap_right _, hAttempts, hListed, hFailed, ?_⟩
  rw [Bool.eq_iff_iff, Report.isTotalFailure_iff, Report.isTotalFailure_iff, hUnavailable,
    ← Report.listedCount_pos_iff, ← Report.listedCount_pos_iff, ← Report.failedCount_pos_iff,
    ← Report.failedCount_pos_iff, hListed, hFailed]

end SameKinds

/-- Two references to one resource change their parts: the one that was scheduled becomes the
duplicate. -/
theorem fetchObjects_alike_pods :
    let mapper : Mapper := fun kind =>
      .ok ⟨⟨kind.group, "v1", "v1", kind.name, kind.name⟩, true, ["list"], []⟩
    let answer (r : Resource) : Except RequestError (List Object) :=
      if r.kind = "Secret" then .error .badPath else .ok [default]
    let kinds : List Kind := [⟨"", "", "Pod"⟩, ⟨"", "v1", "Pod"⟩, ⟨"", "v1", "Secret"⟩]
    let others : List Kind :=
      [⟨"", "v1", "Secret"⟩, ⟨"", "v1", "Pod"⟩, ⟨"", "", "Pod"⟩, ⟨"", "v1", "Pod"⟩]
    let report := fetchObjects mapper (.ofAnswers answer) kinds {}
    let otherReport := fetchObjects mapper (.ofAnswers answer) others {}
    (∀ kind, kind ∈ kinds ↔ kind ∈ others) ∧
      .skipped ⟨"", "v1", "Pod"⟩ .duplicate ∈ report.outcomes ∧
      .skipped ⟨"", "", "Pod"⟩ .duplicate ∉ report.outcomes ∧
      .skipped ⟨"", "", "Pod"⟩ .duplicate ∈ otherReport.outcomes ∧
      report.listedCount = 1 ∧ report.failedCount = 1 ∧ report.Alike otherReport := by
  intro mapper answer kinds others report otherReport
  have hSame : ∀ kind, kind ∈ kinds ↔ kind ∈ others := by
    intro kind
    simp only [kinds, others, List.mem_cons, List.not_mem_nil, or_false]
    constructor
    · rintro (rfl | rfl | rfl) <;> simp
    · rintro (rfl | rfl | rfl | rfl) <;> simp
  exact ⟨hSame, by decide +kernel, by decide +kernel, by decide +kernel, by decide +kernel,
    by decide +kernel, fetchObjects_alike hSame mapper {} answer⟩

end ClusterInventory
