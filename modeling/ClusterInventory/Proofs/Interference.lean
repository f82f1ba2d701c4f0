import Mathlib.Data.List.Forall2
import ClusterInventory.Proofs.Collection

/-! # What a list call can do to the others

Where the lister answers each resource by itself, what it answers for one resource shows only in the
outcome of that resource and in the block of objects that its call contributes.
-/

namespace ClusterInventory

def Lister.ofAnswers (answer : Resource → Except RequestError (List Object)) : Lister :=
  fun _ => answer

/-- Outcomes in the same place: only those of one resource may differ. -/
structure Outcome.SameBut (R : Resource) (o p : Outcome) : Prop where
  resource? : o.resource? = p.resource?
  same : o.resource? ≠ some R → o = p

theorem Outcome.SameBut.refl (R : Resource) (o : Outcome) : Outcome.SameBut R o o :=
  ⟨rfl, fun _ => rfl⟩

/-- The block that a list call contributes to the objects of a report, and what stands around it.
The call has the position `i` among the list calls. -/
structure Report.Contributed (report : Report) (filter : Filter) (i : Nat) (l : Listing)
    (before block after : List Object) : Prop where
  objects : report.objects = before ++ block ++ after
  position : before.length =
    (((report.outcomes.filter Outcome.isAttempted).take i).map Outcome.kept).sum
  collects : ∃ o, (report.outcomes.filter Outcome.isAttempted)[i]? = some o ∧
    Outcome.Collects filter l.resource l.answer o block

/-! ## One call among others -/

theorem Listing.isSkipped_outcome (filter : Filter) (l : Listing) :
    (l.outcome filter).isSkipped = false := by
  unfold outcome
  split <;> rfl

namespace Pass

variable (filter : Filter) (p : Pass)

theorem filter_isSkipped_outcomes :
    (p.report filter).outcomes.filter Outcome.isSkipped =
      p.skipped.map fun s => .skipped s.1 s.2 := by
  rw [report, List.filter_append, List.filter_eq_self.mpr, List.filter_eq_nil_iff.mpr,
    List.append_nil]
  · intro o hOutcome
    obtain ⟨l, _, rfl⟩ := List.mem_map.mp hOutcome
    exact Bool.eq_false_iff.mp (l.isSkipped_outcome filter)
  · intro o hOutcome
    obtain ⟨s, _, rfl⟩ := List.mem_map.mp hOutcome
    rfl

theorem contributed_report {p : Pass} {before after : List Listing} {l : Listing}
    (h : p.listings = before ++ l :: after) :
    (p.report filter).Contributed filter before.length l
      (before.flatMap (Listing.kept filter)) (l.kept filter)
      (after.flatMap (Listing.kept filter)) where
  objects := by
    rw [report, h, List.flatMap_append, List.flatMap_cons, List.append_assoc]
  position := by
    have hKept : Outcome.kept ∘ Listing.outcome filter = List.length ∘ Listing.kept filter :=
      funext fun l => l.kept_outcome filter
    rw [filter_isAttempted_outcomes, h, ← List.map_take, List.take_left, List.map_map, hKept,
      List.length_flatMap]
    rfl
  collects := by
    refine ⟨l.outcome filter, ?_, l.collects filter⟩
    rw [filter_isAttempted_outcomes, h, List.getElem?_map,
      List.getElem?_append_right (Nat.le_refl _), Nat.sub_self]
    rfl

end Pass

/-! ## Two listers -/

namespace Listing

def ofAnswers (answer : Resource → Except RequestError (List Object)) (resources : List Resource) :
    List Listing :=
  resources.map fun r => ⟨r, answer r⟩

theorem run_ofAnswers (answer : Resource → Except RequestError (List Object))
    (earlier resources : List Resource) :
    run (.ofAnswers answer) earlier resources = ofAnswers answer resources := by
  induction resources generalizing earlier with
  | nil => rfl
  | cons r rest ih => rw [run, ih]; rfl

variable {answer other : Resource → Except RequestError (List Object)} {R : Resource}

theorem ofAnswers_congr (hAgree : ∀ r, r ≠ R → answer r = other r) {resources : List Resource}
    (hAway : R ∉ resources) : ofAnswers answer resources = ofAnswers other resources := by
  refine List.map_congr_left fun r hResource => ?_
  rw [hAgree r fun hSame => hAway (hSame ▸ hResource)]

theorem ofAnswers_eq_append (hAgree : ∀ r, r ≠ R → answer r = other r) {resources : List Resource}
    (hNodup : resources.Nodup) {i : Nat} (hResource : resources[i]? = some R) :
    ∃ before after : List Listing, before.length = i ∧
      ofAnswers answer resources = before ++ ⟨R, answer R⟩ :: after ∧
      ofAnswers other resources = before ++ ⟨R, other R⟩ :: after := by
  obtain ⟨hBound, hAt⟩ := List.getElem?_eq_some_iff.mp hResource
  have hSplit : resources = resources.take i ++ R :: resources.drop (i + 1) := by
    rw [← hAt, List.getElem_cons_drop, List.take_append_drop]
  have hLength : (resources.take i).length = i := List.length_take_of_le (Nat.le_of_lt hBound)
  -- A resource is listed once, so that neither part has it.
  revert hSplit hLength
  generalize resources.take i = before, resources.drop (i + 1) = after
  rintro rfl hLength
  have hAway := (List.nodup_cons.mp (List.perm_middle.nodup_iff.mp hNodup)).1
  rw [List.mem_append, not_or] at hAway
  refine ⟨ofAnswers answer before, ofAnswers answer after, ?_, ?_, ?_⟩
  · rw [ofAnswers, List.length_map, hLength]
  · simp only [ofAnswers, List.map_append, List.map_cons]
  · rw [ofAnswers_congr hAgree hAway.1, ofAnswers_congr hAgree hAway.2]
    simp only [ofAnswers, List.map_append, List.map_cons]

theorem outcome_sameBut (hAgree : ∀ r, r ≠ R → answer r = other r) (filter : Filter)
    (r : Resource) :
    Outcome.SameBut R (outcome filter ⟨r, answer r⟩) (outcome filter ⟨r, other r⟩) := by
  have hResource := resource?_outcome filter ⟨r, answer r⟩
  refine ⟨hResource.trans (resource?_outcome filter ⟨r, other r⟩).symm, fun hAway => ?_⟩
  have hOther : r ≠ R := fun hSame => hAway (hSame ▸ hResource)
  rw [hAgree r hOther]

end Listing

/-- What one resource is answered shows in its own outcome and in its own block of objects, and not
at all where it is not listed. -/
theorem fetchObjects_differ_at (mapper : Mapper) (kinds : List Kind) (filter : Filter)
    {R : Resource} {answer other : Resource → Except RequestError (List Object)}
    (hAgree : ∀ r, r ≠ R → answer r = other r) :
    let report := fetchObjects mapper (.ofAnswers answer) kinds filter
    let otherReport := fetchObjects mapper (.ofAnswers other) kinds filter
    let calls := (Pass.run mapper (.ofAnswers answer) kinds filter).calls
    report.outcomes.filter Outcome.isSkipped = otherReport.outcomes.filter Outcome.isSkipped ∧
    calls = (Pass.run mapper (.ofAnswers other) kinds filter).calls ∧
    report.outcomes.Forall₂ (Outcome.SameBut R) otherReport.outcomes ∧
    (R ∉ calls → report = otherReport) ∧
    ∀ i, calls[i]? = some R → ∃ before block otherBlock after,
      report.Contributed filter i ⟨R, answer R⟩ before block after ∧
      otherReport.Contributed filter i ⟨R, other R⟩ before otherBlock after := by
  intro report otherReport calls
  -- The schedule does not depend on the lister.
  let schedule := Schedule.ofKinds mapper filter kinds
  let pass : Pass := ⟨schedule.skipped, Listing.ofAnswers answer schedule.resources⟩
  let otherPass : Pass := ⟨schedule.skipped, Listing.ofAnswers other schedule.resources⟩
  have hPass : Pass.run mapper (.ofAnswers answer) kinds filter = pass := by
    rw [Pass.run, Listing.run_ofAnswers]
  have hOther : Pass.run mapper (.ofAnswers other) kinds filter = otherPass := by
    rw [Pass.run, Listing.run_ofAnswers]
  have hReport : report = pass.report filter := congrArg (Pass.report filter) hPass
  have hOtherReport : otherReport = otherPass.report filter := congrArg (Pass.report filter) hOther
  have hCalls : calls = schedule.resources := Pass.calls_run mapper _ kinds filter
  refine ⟨?_, ?_, ?_, ?_, ?_⟩
  · rw [hReport, hOtherReport, Pass.filter_isSkipped_outcomes, Pass.filter_isSkipped_outcomes]
  · rw [hCalls, Pass.calls_run]
  · rw [hReport, hOtherReport]
    refine List.rel_append ?_ ?_
    · exact List.forall₂_same.mpr fun o _ => .refl R o
    · simp only [pass, otherPass, Listing.ofAnswers, List.map_map, List.forall₂_map_left_iff,
        List.forall₂_map_right_iff]
      exact List.forall₂_same.mpr fun r _ => Listing.outcome_sameBut hAgree filter r
  · intro hAway
    have hListings := Listing.ofAnswers_congr hAgree (hCalls ▸ hAway)
    rw [hReport, hOtherReport]
    simp only [pass, otherPass, hListings]
  · intro i hCall
    rw [hCalls] at hCall
    obtain ⟨before, after, rfl, hListings, hOtherListings⟩ := Listing.ofAnswers_eq_append hAgree
      (Schedule.nodup_resources_ofKinds mapper filter kinds) hCall
    rw [hReport, hOtherReport]
    exact ⟨_, _, _, _, Pass.contributed_report filter hListings,
      Pass.contributed_report filter hOtherListings⟩

/-- One of three list calls may be refused: the other two contribute what they do anyway. -/
theorem fetchObjects_differ_at_secrets :
    let mapper : Mapper := fun kind =>
      .ok ⟨⟨kind.group, kind.version, kind.version, kind.name, kind.name⟩, true, ["list"], []⟩
    let kinds : List Kind := ["Pod", "Secret", "Service"].map fun name => ⟨"", "v1", name⟩
    let secrets : Resource := ⟨"", "v1", "v1", "Secret", "Secret"⟩
    let refused (r : Resource) : Except RequestError (List Object) :=
      if r = secrets then .error .badPath else .ok [default]
    let served (_ : Resource) : Except RequestError (List Object) := .ok [default]
    let report := fetchObjects mapper (.ofAnswers refused) kinds {}
    let otherReport := fetchObjects mapper (.ofAnswers served) kinds {}
    (∀ r, r ≠ secrets → refused r = served r) ∧
      (Pass.run mapper (.ofAnswers refused) kinds {}).calls[1]? = some secrets ∧
      report.objects.length = 2 ∧ otherReport.objects.length = 3 ∧
      report.outcomes.Forall₂ (Outcome.SameBut secrets) otherReport.outcomes ∧
      ∃ before block otherBlock after,
        report.Contributed {} 1 ⟨secrets, refused secrets⟩ before block after ∧
        otherReport.Contributed {} 1 ⟨secrets, served secrets⟩ before otherBlock after := by
  intro mapper kinds secrets refused served report otherReport
  have hAgree : ∀ r, r ≠ secrets → refused r = served r := fun _ hAway => if_neg hAway
  have hCall : (Pass.run mapper (.ofAnswers refused) kinds {}).calls[1]? = some secrets := by
    decide +kernel
  obtain ⟨-, -, hOutcomes, -, hBlocks⟩ := fetchObjects_differ_at mapper kinds {} hAgree
  exact ⟨hAgree, hCall, by decide +kernel, by decide +kernel, hOutcomes, hBlocks 1 hCall⟩

end ClusterInventory
