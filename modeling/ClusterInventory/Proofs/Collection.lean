import Mathlib.Algebra.GroupWithZero.Nat
import ClusterInventory.Proofs.Accounting

/-! # What is collected

The objects of a report are those of the answers, call by call and in the order of each answer:
completed from their resource, and left out only where the filter denies the namespace that they
then have. What an outcome counts is what its call contributes.
-/

namespace ClusterInventory

/-! ## Objects -/

/-- A listed object and what it is completed to. Only the namespace and the type are filled in, and
only where there is none. -/
structure Object.Completes (r : Resource) (o result : Object) : Prop where
  namespaceMissing : o.metadata.namespaceName = none ∨ o.metadata.namespaceName = some "" →
    result.metadata.namespaceName = some "default"
  namespaceGiven : ∀ name, o.metadata.namespaceName = some name → name ≠ "" →
    result.metadata.namespaceName = some name
  typeMissing : o.types = none → result.types = some ⟨r.apiVersion, r.kind⟩
  typeGiven : ∀ t, o.types = some t → result.types = some t
  managedFields : result.metadata.managedFields = o.metadata.managedFields
  others : result.metadata.others = o.metadata.others
  data : result.data = o.data

theorem Object.completes_normalize (r : Resource) (o : Object) :
    Object.Completes r o (o.normalize r) where
  namespaceMissing hMissing := by
    rcases hMissing with hMissing | hMissing <;>
      simp [normalize, namespaceName, hMissing, defaultNamespace]
  namespaceGiven name hGiven hName := by simp [normalize, namespaceName, hGiven, hName]
  typeMissing hMissing := by simp [normalize, hMissing]
  typeGiven t hGiven := by simp [normalize, hGiven]
  managedFields := by unfold normalize; split <;> rfl
  others := by unfold normalize; split <;> rfl
  data := rfl

/-- An object that is completed is in a namespace. -/
theorem Object.Completes.exists_namespace {r : Resource} {o result : Object}
    (h : Object.Completes r o result) :
    ∃ name, result.metadata.namespaceName = some name ∧ name ≠ "" := by
  cases hName : o.metadata.namespaceName with
  | none => exact ⟨"default", h.namespaceMissing (.inl hName), by decide⟩
  | some name =>
    by_cases hEmpty : name = ""
    · exact ⟨"default", h.namespaceMissing (.inr (hEmpty ▸ hName)), by decide⟩
    · exact ⟨name, h.namespaceGiven name hName hEmpty, hEmpty⟩

inductive Contributes (filter : Filter) (r : Resource) : List Object → List Object → Prop
  | nil : Contributes filter r [] []
  | kept {o result : Object} {name : String} {objects block : List Object}
      (hCompletes : Object.Completes r o result)
      (hName : result.metadata.namespaceName = some name)
      (hAllowed : filter.allowsNamespace name = true) (hRest : Contributes filter r objects block) :
      Contributes filter r (o :: objects) (result :: block)
  | dropped {o result : Object} {name : String} {objects block : List Object}
      (hCompletes : Object.Completes r o result)
      (hName : result.metadata.namespaceName = some name)
      (hDenied : filter.allowsNamespace name = false)
      (hRest : Contributes filter r objects block) :
      Contributes filter r (o :: objects) block

theorem contributes_filter_normalize (filter : Filter) (r : Resource) (objects : List Object) :
    Contributes filter r objects
      ((objects.map (Object.normalize r)).filter fun o =>
        filter.allowsNamespace o.namespaceName) := by
  induction objects with
  | nil => exact .nil
  | cons o rest ih =>
    have hCompletes := o.completes_normalize r
    obtain ⟨name, hName, _⟩ := hCompletes.exists_namespace
    have hSeen : (o.normalize r).namespaceName = name := by simp [Object.namespaceName, hName]
    simp only [List.map_cons, List.filter_cons, hSeen]
    cases hAllows : filter.allowsNamespace name with
    | true => exact .kept hCompletes hName hAllows ih
    | false => exact .dropped hCompletes hName hAllows ih

theorem Contributes.length_le {filter : Filter} {r : Resource} {objects block : List Object}
    (h : Contributes filter r objects block) : block.length ≤ objects.length := by
  induction h with
  | nil => exact Nat.le_refl 0
  | kept _ _ _ _ ih => exact Nat.succ_le_succ ih
  | dropped _ _ _ _ ih => exact Nat.le_succ_of_le ih

/-- What is contributed is in a namespace that the filter allows. -/
theorem Contributes.exists_namespace {filter : Filter} {r : Resource} {objects block : List Object}
    (h : Contributes filter r objects block) (o : Object) (hObject : o ∈ block) :
    ∃ name, o.metadata.namespaceName = some name ∧ name ≠ "" ∧
      filter.allowsNamespace name = true := by
  induction h with
  | nil => cases hObject
  | kept hCompletes hName hAllowed _ ih =>
    rcases List.mem_cons.mp hObject with rfl | hRest
    · obtain ⟨name, hSame, hNonempty⟩ := hCompletes.exists_namespace
      have hEq := Option.some.inj (hName.symm.trans hSame)
      exact ⟨name, hSame, hNonempty, hEq ▸ hAllowed⟩
    · exact ih hRest
  | dropped _ _ _ _ ih => exact ih hObject

/-! ## Outcomes -/

def Outcome.kept : Outcome → Nat
  | .listed _ _ kept => kept
  | _ => 0

inductive Outcome.Collects (filter : Filter) (r : Resource) :
    Except RequestError (List Object) → Outcome → List Object → Prop
  | listed {objects block : List Object} (hBlock : Contributes filter r objects block) :
      Outcome.Collects filter r (.ok objects) (.listed r objects.length block.length) block
  | failed (e : RequestError) : Outcome.Collects filter r (.error e) (.failed r e.message) []

namespace Listing

variable (filter : Filter)

theorem collects (l : Listing) :
    Outcome.Collects filter l.resource l.answer (l.outcome filter) (l.kept filter) := by
  cases hAnswer : l.answer with
  | ok objects =>
    have hKept : l.kept filter = (objects.map (Object.normalize l.resource)).filter fun o =>
        filter.allowsNamespace o.namespaceName := by simp [kept, hAnswer]
    simp only [outcome, hAnswer, hKept]
    exact .listed (contributes_filter_normalize filter l.resource objects)
  | error e =>
    simp only [outcome, kept, hAnswer]
    exact .failed e

theorem exists_namespace_of_mem_kept (l : Listing) (o : Object) (hObject : o ∈ l.kept filter) :
    ∃ name, o.metadata.namespaceName = some name ∧ name ≠ "" ∧
      filter.allowsNamespace name = true := by
  have hCollects := l.collects filter
  generalize l.answer = answer, l.outcome filter = outcome, l.kept filter = block at *
  cases hCollects with
  | listed hBlock => exact hBlock.exists_namespace o hObject
  | failed e => cases hObject

theorem kept_outcome (l : Listing) : (l.outcome filter).kept = (l.kept filter).length := by
  have hCollects := l.collects filter
  revert hCollects
  generalize l.answer = answer, l.outcome filter = o, l.kept filter = block
  intro hCollects
  cases hCollects <;> rfl

theorem isAttempted_outcome (l : Listing) : (l.outcome filter).isAttempted = true := by
  unfold outcome
  split <;> rfl

end Listing

namespace Pass

variable (filter : Filter) (p : Pass)

/-- The outcomes of the list calls are those that say that a call was made. -/
theorem filter_isAttempted_outcomes :
    (p.report filter).outcomes.filter Outcome.isAttempted =
      p.listings.map (Listing.outcome filter) := by
  rw [report, List.filter_append, List.filter_eq_nil_iff.mpr, List.nil_append,
    List.filter_eq_self]
  · intro o hOutcome
    obtain ⟨l, _, rfl⟩ := List.mem_map.mp hOutcome
    exact l.isAttempted_outcome filter
  · intro o hOutcome
    obtain ⟨⟨kind, reason⟩, _, rfl⟩ := List.mem_map.mp hOutcome
    exact Bool.false_ne_true

theorem sum_kept_outcomes :
    ((p.report filter).outcomes.map Outcome.kept).sum = (p.report filter).objects.length := by
  have hSkipped : ∀ skipped : List (Kind × SkipReason),
      ((skipped.map fun s => Outcome.skipped s.1 s.2).map Outcome.kept).sum = 0 := by
    intro skipped
    induction skipped with
    | nil => rfl
    | cons s rest ih => simpa [Outcome.kept] using ih
  have hListed : (p.listings.map (Listing.outcome filter)).map Outcome.kept =
      (p.listings.map (Listing.kept filter)).map List.length := by
    simp only [List.map_map]
    exact List.map_congr_left fun l _ => l.kept_outcome filter
  rw [report, List.map_append, List.sum_append, hSkipped, hListed, Nat.zero_add,
    ← List.length_flatten, List.flatMap_def]

end Pass

/-! ## The pass -/

/-- Objects are neither lost nor repeated nor altered, and every one of them is counted. -/
theorem fetchObjects_collects (mapper : Mapper) (lister : Lister) (kinds : List Kind)
    (filter : Filter) :
    let report := fetchObjects mapper lister kinds filter
    let calls := (Pass.run mapper lister kinds filter).calls
    let attempts := report.outcomes.filter Outcome.isAttempted
    ∃ blocks : List (List Object),
      report.objects = blocks.flatten ∧
      attempts.length = calls.length ∧ blocks.length = calls.length ∧
      (∀ (i : Nat) (r : Resource) (o : Outcome) (block : List Object), calls[i]? = some r →
        attempts[i]? = some o → blocks[i]? = some block →
        Outcome.Collects filter r (lister (calls.take i) r) o block) ∧
      (∀ (r : Resource) (listed kept : Nat), .listed r listed kept ∈ report.outcomes →
        kept ≤ listed) ∧
      (report.outcomes.map Outcome.kept).sum = report.objects.length := by
  intro report calls attempts
  let pass := Pass.run mapper lister kinds filter
  have hAttempts : attempts = pass.listings.map (Listing.outcome filter) :=
    pass.filter_isAttempted_outcomes filter
  have hListings : pass.listings = Listing.run lister [] calls := by
    simp only [calls, Pass.calls_run]
    rfl
  refine ⟨pass.listings.map (Listing.kept filter), List.flatMap_def .., ?_, ?_, ?_, ?_,
    pass.sum_kept_outcomes filter⟩
  · rw [hAttempts, hListings, List.length_map, Listing.length_run]
  · rw [hListings, List.length_map, Listing.length_run]
  · intro i r o block hCall hAttempt hBlock
    simp only [hAttempts, hListings, List.getElem?_map, Listing.getElem?_run, hCall,
      Option.map_some, List.nil_append, Option.some.injEq] at hAttempt hBlock
    rw [← hAttempt, ← hBlock]
    exact Listing.collects filter ⟨r, lister (calls.take i) r⟩
  · intro r listed kept hListed
    have hAttempted : Outcome.listed r listed kept ∈ attempts :=
      List.mem_filter.mpr ⟨hListed, rfl⟩
    rw [hAttempts] at hAttempted
    obtain ⟨l, _, hOutcome⟩ := List.mem_map.mp hAttempted
    have hCollects := l.collects filter
    rw [hOutcome] at hCollects
    generalize l.kept filter = block at hCollects
    generalize l.answer = answer at hCollects
    cases hCollects with
    | listed hBlock => exact hBlock.length_le

end ClusterInventory
