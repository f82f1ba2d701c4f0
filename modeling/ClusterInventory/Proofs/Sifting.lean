import Mathlib.Data.List.Basic
import ClusterInventory.Proofs.Collection

/-! # A filter around a fetch

A filter works while a pass goes on, but it could as well stand around it: the kinds that it turns
away are left out of the request, and the objects in namespaces that it denies are left out of what
comes back. A kind that is turned away leaves no trace in what is scheduled after it.
-/

namespace ClusterInventory

def Filter.accepts (f : Filter) (kind : Kind) : Bool := (f.checkKind kind.name).isOk

theorem Filter.accepts_iff (f : Filter) (kind : Kind) :
    f.accepts kind = true ↔ Permitted f.selectKinds f.ignoreKinds kind.name := by
  rw [← checkKind_eq_ok_iff, accepts]
  cases f.checkKind kind.name with
  | error rejection => simp [Except.isOk, Except.toBool]
  | ok _ => simp [Except.isOk, Except.toBool]

theorem Filter.checkKind_empty (kind : String) : ({} : Filter).checkKind kind = .ok () :=
  (checkKind_eq_ok_iff {} kind).mpr (permitted_nil kind)

theorem Filter.allowsNamespace_empty (name : String) : ({} : Filter).allowsNamespace name = true :=
  (allowsNamespace_iff {} name).mpr (permitted_nil name)

def SkipReason.isRejected : SkipReason → Bool
  | rejected _ => true
  | _ => false

namespace Outcome

def isRejected : Outcome → Bool
  | skipped _ reason => reason.isRejected
  | _ => false

def listed? : Outcome → Option (Resource × Nat)
  | .listed r found _ => some (r, found)
  | _ => none

def whole : Outcome → Outcome
  | .listed r found _ => .listed r found found
  | o => o

theorem listed?_whole (o : Outcome) : o.whole.listed? = o.listed? := by
  cases o <;> rfl

theorem listed?_eq_none_of_isRejected {o : Outcome} (h : o.isRejected = true) :
    o.listed? = none := by
  cases o with
  | listed r found kept => cases h
  | skipped kind reason => rfl
  | failed r error => rfl

end Outcome

/-! ## What is scheduled -/

namespace Mapper

variable (mapper : Mapper) (filter : Filter)

theorem resolve_eq_of_accepts {kind : Kind} (h : filter.accepts kind = true)
    (scheduled : List Resource) :
    mapper.resolve filter scheduled kind = mapper.resolve {} scheduled kind := by
  rw [Filter.accepts_iff, ← Filter.checkKind_eq_ok_iff] at h
  rw [resolve, resolve, h, Filter.checkKind_empty]

/-- Only the filter rejects, and it does so before anything else is looked at. -/
theorem isRejected_of_resolve {kind : Kind} {scheduled : List Resource} {reason : SkipReason}
    (h : mapper.resolve filter scheduled kind = .error reason) :
    reason.isRejected = !filter.accepts kind := by
  have hAccepts := filter.accepts_iff kind
  cases (mapper.resolve_eq_iff filter scheduled kind _).mp h with
  | ignored hName =>
    have hDenied : filter.accepts kind = false :=
      Bool.eq_false_iff.mpr fun hAccepted => (hAccepts.mp hAccepted).1 hName
    rw [hDenied, SkipReason.isRejected, Bool.not_false]
  | notSelected hIgnored hSelect hName =>
    have hDenied : filter.accepts kind = false :=
      Bool.eq_false_iff.mpr fun hAccepted => (hAccepts.mp hAccepted).2.elim hSelect hName
    rw [hDenied, SkipReason.isRejected, Bool.not_false]
  | unmapped hPasses _ => rw [hAccepts.mpr hPasses]; rfl
  | notEnumerable hPasses _ _ => rw [hAccepts.mpr hPasses]; rfl
  | notListable hPasses _ _ _ => rw [hAccepts.mpr hPasses]; rfl
  | duplicate hLeads _ => rw [hAccepts.mpr hLeads.1]; rfl

theorem exists_error_of_not_accepts {kind : Kind} (h : filter.accepts kind = false)
    (scheduled : List Resource) : ∃ reason, mapper.resolve filter scheduled kind = .error reason := by
  cases hVerdict : mapper.resolve filter scheduled kind with
  | error reason => exact ⟨reason, rfl⟩
  | ok r =>
    have hPasses := ((mapper.resolve_eq_ok_iff filter scheduled kind r).mp hVerdict).1.1
    rw [← Filter.accepts_iff, h] at hPasses
    cases hPasses

end Mapper

namespace Schedule

variable (mapper : Mapper) (filter : Filter)

structure Sifts (s plain : Schedule) : Prop where
  resources : s.resources = plain.resources
  skipped : plain.skipped = s.skipped.filter fun e => !e.2.isRejected

theorem Sifts.add_accepted {s plain : Schedule} (h : s.Sifts plain) {kind : Kind}
    (hAccepted : filter.accepts kind = true) :
    (add mapper filter s kind).Sifts (add mapper {} plain kind) := by
  have hPlain : mapper.resolve {} plain.resources kind = mapper.resolve filter s.resources kind := by
    rw [← h.resources, mapper.resolve_eq_of_accepts filter hAccepted]
  rw [add, add, hPlain]
  cases hVerdict : mapper.resolve filter s.resources kind with
  | ok r => exact ⟨congrArg (· ++ [r]) h.resources, h.skipped⟩
  | error reason =>
    have hKept := mapper.isRejected_of_resolve filter hVerdict
    rw [hAccepted] at hKept
    refine ⟨h.resources, ?_⟩
    simp [h.skipped, hKept]

theorem Sifts.add_rejected {s plain : Schedule} (h : s.Sifts plain) {kind : Kind}
    (hRejected : filter.accepts kind = false) : (add mapper filter s kind).Sifts plain := by
  obtain ⟨reason, hVerdict⟩ := mapper.exists_error_of_not_accepts filter hRejected s.resources
  have hGone := mapper.isRejected_of_resolve filter hVerdict
  rw [hRejected] at hGone
  rw [add, hVerdict]
  refine ⟨h.resources, ?_⟩
  simp [h.skipped, hGone]

theorem sifts_ofKinds (kinds : List Kind) :
    (ofKinds mapper filter kinds).Sifts (ofKinds mapper {} (kinds.filter filter.accepts)) := by
  have hFold : ∀ s plain : Schedule, s.Sifts plain →
      (kinds.foldl (add mapper filter) s).Sifts
        ((kinds.filter filter.accepts).foldl (add mapper {}) plain) := by
    induction kinds with
    | nil => exact fun _ _ h => h
    | cons kind rest ih =>
      intro s plain h
      rw [List.foldl_cons]
      cases hAccepts : filter.accepts kind with
      | true =>
        rw [List.filter_cons_of_pos hAccepts, List.foldl_cons]
        exact ih _ _ (h.add_accepted mapper filter hAccepts)
      | false =>
        rw [List.filter_cons_of_neg (Bool.eq_false_iff.mp hAccepts)]
        exact ih _ _ (h.add_rejected mapper filter hAccepts)
  exact hFold {} {} ⟨rfl, rfl⟩

end Schedule

/-! ## What is kept -/

namespace Listing

variable (filter : Filter)

theorem kept_empty {l : Listing} {objects : List Object} (h : l.answer = .ok objects) :
    l.kept {} = objects.map (Object.normalize l.resource) := by
  rw [kept, h]
  exact List.filter_eq_self.mpr fun _ _ => Filter.allowsNamespace_empty _

theorem kept_eq_filter (l : Listing) :
    l.kept filter = (l.kept {}).filter fun o => filter.allowsNamespace o.namespaceName := by
  cases hAnswer : l.answer with
  | ok objects => rw [kept_empty hAnswer, kept, hAnswer]
  | error e => simp only [kept, hAnswer, List.filter_nil]

theorem outcome_empty (l : Listing) : l.outcome {} = (l.outcome filter).whole := by
  cases hAnswer : l.answer with
  | ok objects => simp only [outcome, hAnswer, kept_empty hAnswer, List.length_map, Outcome.whole]
  | error e => simp only [outcome, hAnswer, Outcome.whole]

theorem isRejected_outcome (l : Listing) : (l.outcome filter).isRejected = false := by
  rw [outcome]
  split <;> rfl

end Listing

/-! ## The pass -/

structure Report.Sifts (filter : Filter) (report plain : Report) : Prop where
  objects : report.objects =
    plain.objects.filter fun o => filter.allowsNamespace o.namespaceName
  listed : report.outcomes.filterMap Outcome.listed? = plain.outcomes.filterMap Outcome.listed?
  outcomes : plain.outcomes =
    (report.outcomes.filter fun o => !o.isRejected).map Outcome.whole

theorem Report.sifts_of_outcomes {filter : Filter} {report plain : Report}
    (hObjects : report.objects =
      plain.objects.filter fun o => filter.allowsNamespace o.namespaceName)
    (hOutcomes : plain.outcomes =
      (report.outcomes.filter fun o => !o.isRejected).map Outcome.whole) :
    report.Sifts filter plain := by
  refine ⟨hObjects, ?_, hOutcomes⟩
  have hWhole : Outcome.listed? ∘ Outcome.whole = Outcome.listed? := funext Outcome.listed?_whole
  rw [hOutcomes, List.filterMap_map, hWhole, List.filterMap_filter]
  apply List.filterMap_congr
  intro o _
  cases hRejected : o.isRejected with
  | true => exact Outcome.listed?_eq_none_of_isRejected hRejected
  | false => rfl

namespace Pass

variable (mapper : Mapper) (lister : Lister) (kinds : List Kind) (filter : Filter)

theorem listings_run_accepted :
    (run mapper lister (kinds.filter filter.accepts) {}).listings =
      (run mapper lister kinds filter).listings := by
  rw [run, run, (Schedule.sifts_ofKinds mapper filter kinds).resources]

theorem skipped_run_accepted :
    (run mapper lister (kinds.filter filter.accepts) {}).skipped =
      (run mapper lister kinds filter).skipped.filter fun e => !e.2.isRejected :=
  (Schedule.sifts_ofKinds mapper filter kinds).skipped

theorem filter_outcomes_report (p : Pass) :
    (p.report filter).outcomes.filter (fun o => !o.isRejected) =
      (p.skipped.filter fun e => !e.2.isRejected).map (fun e => .skipped e.1 e.2) ++
        p.listings.map (Listing.outcome filter) := by
  rw [report, List.filter_append, List.filter_map]
  congr 1
  apply List.filter_eq_self.mpr
  intro o hOutcome
  obtain ⟨l, _, rfl⟩ := List.mem_map.mp hOutcome
  rw [l.isRejected_outcome filter, Bool.not_false]

theorem sifts_report :
    ((run mapper lister kinds filter).report filter).Sifts filter
      ((run mapper lister (kinds.filter filter.accepts) {}).report {}) := by
  have hListings := listings_run_accepted mapper lister kinds filter
  have hSkipped := skipped_run_accepted mapper lister kinds filter
  apply Report.sifts_of_outcomes
  · rw [report, report, hListings, List.filter_flatMap]
    exact List.flatMap_congr fun l _ => l.kept_eq_filter filter
  · have hSkips : Outcome.whole ∘ (fun e : Kind × SkipReason => Outcome.skipped e.1 e.2) =
        fun e => .skipped e.1 e.2 := rfl
    have hOutcomes : Outcome.whole ∘ Listing.outcome filter = Listing.outcome {} :=
      funext fun l => (l.outcome_empty filter).symm
    rw [filter_outcomes_report, List.map_append, List.map_map, List.map_map, hSkips, hOutcomes,
      report, hListings, hSkipped]

end Pass

/-- A filter may as well be applied to the kinds before a pass without one, and to the objects
after it. What it turns away need not even be mapped. -/
theorem fetchObjects_sifts (mapper : Mapper) (lister : Lister) (kinds : List Kind)
    (filter : Filter) :
    let accepted := kinds.filter filter.accepts
    (fetchObjects mapper lister kinds filter).Sifts filter
        (fetchObjects mapper lister accepted {}) ∧
      (Pass.run mapper lister kinds filter).calls = (Pass.run mapper lister accepted {}).calls ∧
      ∀ other : Mapper, (∀ kind ∈ accepted, other kind = mapper kind) →
        fetchObjects other lister kinds filter = fetchObjects mapper lister kinds filter := by
  intro accepted
  refine ⟨Pass.sifts_report mapper lister kinds filter, ?_, ?_⟩
  · exact congrArg (List.map Listing.resource)
      (Pass.listings_run_accepted mapper lister kinds filter).symm
  · intro other hSame
    have hSchedule : Schedule.ofKinds other filter kinds = Schedule.ofKinds mapper filter kinds := by
      apply Schedule.ofKinds_congr
      intro kind hKind hPasses
      exact hSame kind (List.mem_filter.mpr ⟨hKind, (filter.accepts_iff kind).mpr hPasses⟩)
    rw [fetchObjects, fetchObjects, Pass.run, Pass.run, hSchedule]

/-- The kind that is turned away comes first: the other name of its resource is no duplicate. -/
theorem fetchObjects_sifts_secrets :
    let mapper : Mapper := fun kind =>
      let plural := if kind.name = "Pod" then "pods" else "secrets"
      .ok ⟨⟨kind.group, "v1", "v1", plural, plural⟩, true, ["list"], []⟩
    let other : Mapper := fun kind =>
      if kind.name = "Secret" then .error (.notFound "Secret") else mapper kind
    let system : Object := { (default : Object) with metadata := { namespaceName := some "system" } }
    let lister : Lister := fun _ _ => .ok [default, system]
    let kinds : List Kind := ["Secret", "Pod", "Credential"].map fun name => ⟨"", "v1", name⟩
    let filter : Filter := { ignoreKinds := ["Secret"], ignoreNamespaces := ["system"] }
    let accepted := kinds.filter filter.accepts
    let report := fetchObjects mapper lister kinds filter
    let plain := fetchObjects mapper lister accepted {}
    (∀ kind ∈ accepted, other kind = mapper kind) ∧ report.skippedCount = 1 ∧
      report.listedCount = 2 ∧ report.objects.length = 2 ∧ plain.objects.length = 4 ∧
      report.Sifts filter plain ∧ fetchObjects other lister kinds filter = report := by
  intro mapper other system lister kinds filter accepted report plain
  have hSame : ∀ kind ∈ accepted, other kind = mapper kind := by
    intro kind hKind
    have hAccepted : accepted = [⟨"", "v1", "Pod"⟩, ⟨"", "v1", "Credential"⟩] := by decide +kernel
    rw [hAccepted, List.mem_cons, List.mem_singleton] at hKind
    rcases hKind with rfl | rfl <;> rfl
  obtain ⟨hSifts, -, hOther⟩ := fetchObjects_sifts mapper lister kinds filter
  exact ⟨hSame, by decide +kernel, by decide +kernel, by decide +kernel, by decide +kernel, hSifts,
    hOther other hSame⟩

end ClusterInventory
