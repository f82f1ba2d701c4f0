import ClusterInventory.Fetch
import ClusterInventory.Proofs.Filter

/-! # What is scheduled

Scheduling gives every requested kind a verdict: the first reason to skip it, or the resource that
is to be listed for it. A verdict depends on the verdicts before it only where the resource is
already scheduled.
-/

namespace ClusterInventory

abbrev Verdict := Except SkipReason Resource

/-- A kind leads to a resource if the filter lets its name pass and it is mapped to that resource,
which is a collection that can be listed. -/
def Mapper.Leads (mapper : Mapper) (filter : Filter) (kind : Kind) (r : Resource) : Prop :=
  Filter.Permitted filter.selectKinds filter.ignoreKinds kind.name ∧
    ∃ m, mapper kind = .ok m ∧ m.resource = r ∧ Resource.isEnumerable r.plural = true ∧
      "list" ∈ m.verbs

/-- The verdict on a kind that follows the verdicts on the kinds requested before it. -/
inductive Decides (mapper : Mapper) (filter : Filter) (earlier : List Verdict) (kind : Kind) :
    Verdict → Prop
  | ignored (hName : kind.name ∈ filter.ignoreKinds) :
      Decides mapper filter earlier kind (.error (.rejected .ignored))
  | notSelected (hIgnored : kind.name ∉ filter.ignoreKinds) (hSelect : filter.selectKinds ≠ [])
      (hName : kind.name ∉ filter.selectKinds) :
      Decides mapper filter earlier kind (.error (.rejected .notSelected))
  | unmapped {e : MappingError}
      (hPasses : Filter.Permitted filter.selectKinds filter.ignoreKinds kind.name)
      (hMapped : mapper kind = .error e) :
      Decides mapper filter earlier kind (.error (.unmapped e))
  | notEnumerable {m : Mapping}
      (hPasses : Filter.Permitted filter.selectKinds filter.ignoreKinds kind.name)
      (hMapped : mapper kind = .ok m) (hPlural : Resource.isEnumerable m.resource.plural = false) :
      Decides mapper filter earlier kind (.error .notEnumerable)
  | notListable {m : Mapping}
      (hPasses : Filter.Permitted filter.selectKinds filter.ignoreKinds kind.name)
      (hMapped : mapper kind = .ok m) (hPlural : Resource.isEnumerable m.resource.plural = true)
      (hVerbs : "list" ∉ m.verbs) :
      Decides mapper filter earlier kind (.error .notListable)
  | duplicate {r : Resource} (hLeads : mapper.Leads filter kind r) (hEarlier : .ok r ∈ earlier) :
      Decides mapper filter earlier kind (.error .duplicate)
  | scheduled {r : Resource} (hLeads : mapper.Leads filter kind r) (hEarlier : .ok r ∉ earlier) :
      Decides mapper filter earlier kind (.ok r)

theorem Mapping.isListable_iff (m : Mapping) : m.isListable = true ↔ "list" ∈ m.verbs := by
  simp [isListable, supports]

namespace Verdict

def resources (verdicts : List Verdict) : List Resource := verdicts.filterMap Except.toOption

def skipped? : Kind × Verdict → Option (Kind × SkipReason)
  | (kind, .error reason) => some (kind, reason)
  | (_, .ok _) => none

def skips (kinds : List Kind) (verdicts : List Verdict) : List (Kind × SkipReason) :=
  (kinds.zip verdicts).filterMap skipped?

@[simp] theorem resources_nil : resources [] = [] := rfl

@[simp] theorem resources_ok_cons (r : Resource) (rest : List Verdict) :
    resources (.ok r :: rest) = r :: resources rest := rfl

@[simp] theorem resources_error_cons (reason : SkipReason) (rest : List Verdict) :
    resources (.error reason :: rest) = resources rest := rfl

@[simp] theorem resources_append (verdicts more : List Verdict) :
    resources (verdicts ++ more) = resources verdicts ++ resources more :=
  List.filterMap_append

@[simp] theorem resources_map_ok (resources : List Resource) :
    Verdict.resources (resources.map .ok) = resources := by
  induction resources with
  | nil => rfl
  | cons r rest ih => simp [ih]

theorem mem_resources_iff (r : Resource) (verdicts : List Verdict) :
    r ∈ resources verdicts ↔ .ok r ∈ verdicts := by
  induction verdicts with
  | nil => simp
  | cons v rest ih => cases v <;> simp [ih]

theorem mem_map_ok_iff (r : Resource) (resources : List Resource) :
    (.ok r : Verdict) ∈ resources.map .ok ↔ r ∈ resources := by
  rw [← mem_resources_iff, resources_map_ok]

@[simp] theorem skips_nil (verdicts : List Verdict) : skips [] verdicts = [] := rfl

@[simp] theorem skips_ok_cons (kind : Kind) (kinds : List Kind) (r : Resource)
    (rest : List Verdict) : skips (kind :: kinds) (.ok r :: rest) = skips kinds rest := rfl

@[simp] theorem skips_error_cons (kind : Kind) (kinds : List Kind) (reason : SkipReason)
    (rest : List Verdict) :
    skips (kind :: kinds) (.error reason :: rest) = (kind, reason) :: skips kinds rest := rfl

/-- Every verdict skips its kind or schedules a resource. -/
theorem length_skips_add_length_resources (kinds : List Kind) (verdicts : List Verdict)
    (hLength : verdicts.length = kinds.length) :
    (skips kinds verdicts).length + (resources verdicts).length = kinds.length := by
  induction kinds generalizing verdicts with
  | nil => simp [List.length_eq_zero_iff.mp hLength]
  | cons kind kinds ih =>
    cases verdicts with
    | nil => cases hLength
    | cons v rest =>
      have hRest := ih rest (Nat.succ.inj hLength)
      cases v with
      | ok r => simp only [skips_ok_cons, resources_ok_cons, List.length_cons]; omega
      | error reason => simp only [skips_error_cons, resources_error_cons, List.length_cons]; omega

end Verdict

/-! ## The verdict on one kind -/

namespace Mapper

theorem resolve_decides (mapper : Mapper) (filter : Filter) (earlier : List Verdict)
    (kind : Kind) :
    Decides mapper filter earlier kind
      (mapper.resolve filter (Verdict.resources earlier) kind) := by
  unfold resolve
  split
  · rename_i rejection hRejected
    unfold Filter.checkKind at hRejected
    split at hRejected
    · rename_i hIgnored
      cases hRejected
      exact .ignored hIgnored
    · rename_i hIgnored
      split at hRejected
      · rename_i hOther
        cases hRejected
        exact .notSelected hIgnored hOther.1 hOther.2
      · cases hRejected
  · rename_i hPassed
    have hPasses := (filter.checkKind_eq_ok_iff kind.name).mp hPassed
    split
    · rename_i hMapped
      exact .unmapped hPasses hMapped
    · rename_i m hMapped
      split
      · rename_i hPlural
        exact .notEnumerable hPasses hMapped (Bool.eq_false_iff.mpr hPlural)
      · rename_i hPlural
        have hPlural : Resource.isEnumerable m.resource.plural = true := by simpa using hPlural
        split
        · rename_i hVerbs
          exact .notListable hPasses hMapped hPlural (by rwa [m.isListable_iff] at hVerbs)
        · rename_i hVerbs
          have hVerbs : "list" ∈ m.verbs := by rw [← m.isListable_iff]; simpa using hVerbs
          have hLeads : mapper.Leads filter kind m.resource :=
            ⟨hPasses, m, hMapped, rfl, hPlural, hVerbs⟩
          split
          · rename_i hScheduled
            exact .duplicate hLeads ((Verdict.mem_resources_iff _ _).mp hScheduled)
          · rename_i hScheduled
            exact .scheduled hLeads fun hEarlier =>
              hScheduled ((Verdict.mem_resources_iff _ _).mpr hEarlier)

/-- The verdict on a kind is the one that resolving it gives, and no other. -/
theorem decides_iff (mapper : Mapper) (filter : Filter) (earlier : List Verdict) (kind : Kind)
    (v : Verdict) :
    Decides mapper filter earlier kind v ↔
      mapper.resolve filter (Verdict.resources earlier) kind = v := by
  have hPassed := filter.checkKind_eq_ok_iff kind.name
  constructor
  · intro hDecides
    cases hDecides with
    | ignored hName => simp [resolve, Filter.checkKind, hName]
    | notSelected hIgnored hSelect hName =>
      simp [resolve, Filter.checkKind, hIgnored, hSelect, hName]
    | unmapped hPasses hMapped => simp [resolve, hPassed.mpr hPasses, hMapped]
    | notEnumerable hPasses hMapped hPlural =>
      simp [resolve, hPassed.mpr hPasses, hMapped, hPlural]
    | @notListable m hPasses hMapped hPlural hVerbs =>
      rw [← m.isListable_iff] at hVerbs
      simp [resolve, hPassed.mpr hPasses, hMapped, hPlural, hVerbs]
    | duplicate hLeads hEarlier =>
      obtain ⟨hPasses, m, hMapped, rfl, hPlural, hVerbs⟩ := hLeads
      rw [← m.isListable_iff] at hVerbs
      rw [← Verdict.mem_resources_iff] at hEarlier
      simp [resolve, hPassed.mpr hPasses, hMapped, hPlural, hVerbs, hEarlier]
    | scheduled hLeads hEarlier =>
      obtain ⟨hPasses, m, hMapped, rfl, hPlural, hVerbs⟩ := hLeads
      rw [← m.isListable_iff] at hVerbs
      rw [← Verdict.mem_resources_iff] at hEarlier
      simp [resolve, hPassed.mpr hPasses, hMapped, hPlural, hVerbs, hEarlier]
  · rintro rfl
    exact mapper.resolve_decides filter earlier kind

theorem resolve_eq_iff (mapper : Mapper) (filter : Filter) (scheduled : List Resource)
    (kind : Kind) (v : Verdict) :
    mapper.resolve filter scheduled kind = v ↔
      Decides mapper filter (scheduled.map .ok) kind v := by
  rw [decides_iff, Verdict.resources_map_ok]

theorem resolve_eq_ok_iff (mapper : Mapper) (filter : Filter) (scheduled : List Resource)
    (kind : Kind) (r : Resource) :
    mapper.resolve filter scheduled kind = .ok r ↔ mapper.Leads filter kind r ∧ r ∉ scheduled := by
  rw [resolve_eq_iff, ← Verdict.mem_map_ok_iff]
  constructor
  · rintro (_ | _ | _ | _ | _ | _ | ⟨hLeads, hEarlier⟩)
    exact ⟨hLeads, hEarlier⟩
  · rintro ⟨hLeads, hEarlier⟩
    exact .scheduled hLeads hEarlier

/-- A verdict depends on the mapping of its kind only where the filter lets the kind pass. -/
theorem resolve_congr {mapper other : Mapper} {filter : Filter} {kind : Kind}
    (h : Filter.Permitted filter.selectKinds filter.ignoreKinds kind.name →
      mapper kind = other kind) (scheduled : List Resource) :
    mapper.resolve filter scheduled kind = other.resolve filter scheduled kind := by
  unfold resolve
  cases hChecked : filter.checkKind kind.name with
  | error rejection => rfl
  | ok _ => rw [h ((filter.checkKind_eq_ok_iff kind.name).mp hChecked)]

end Mapper

/-! ## The verdicts on a request -/

namespace Schedule

def verdicts (mapper : Mapper) (filter : Filter) (earlier : List Verdict) :
    List Kind → List Verdict
  | [] => []
  | kind :: rest =>
      let v := mapper.resolve filter (Verdict.resources earlier) kind
      v :: verdicts mapper filter (earlier ++ [v]) rest

variable (mapper : Mapper) (filter : Filter)

@[simp] theorem length_verdicts (earlier : List Verdict) (kinds : List Kind) :
    (verdicts mapper filter earlier kinds).length = kinds.length := by
  induction kinds generalizing earlier with
  | nil => rfl
  | cons kind rest ih => simp [verdicts, ih]

theorem verdicts_decide (earlier : List Verdict) (kinds : List Kind) (i : Nat) {kind : Kind}
    {v : Verdict} (hKind : kinds[i]? = some kind)
    (hVerdict : (verdicts mapper filter earlier kinds)[i]? = some v) :
    Decides mapper filter (earlier ++ (verdicts mapper filter earlier kinds).take i) kind v := by
  induction kinds generalizing earlier i with
  | nil => simp at hKind
  | cons first rest ih =>
    cases i with
    | zero =>
      simp only [List.getElem?_cons_zero, Option.some.injEq] at hKind
      simp only [verdicts, List.getElem?_cons_zero, Option.some.injEq] at hVerdict
      subst hKind hVerdict
      simpa using mapper.resolve_decides filter earlier first
    | succ i =>
      simp only [List.getElem?_cons_succ] at hKind
      simp only [verdicts, List.getElem?_cons_succ] at hVerdict
      have hRest := ih _ i hKind hVerdict
      simpa [verdicts] using hRest

/-- One more kind, as its verdict says. -/
theorem add_eq (earlier : List Verdict) (skipped : List (Kind × SkipReason)) (kind : Kind) :
    add mapper filter ⟨Verdict.resources earlier, skipped⟩ kind =
      let v := mapper.resolve filter (Verdict.resources earlier) kind
      ⟨Verdict.resources (earlier ++ [v]), skipped ++ Verdict.skips [kind] [v]⟩ := by
  cases hVerdict : mapper.resolve filter (Verdict.resources earlier) kind <;>
    simp [add, hVerdict]

theorem foldl_add_eq (earlier : List Verdict) (skipped : List (Kind × SkipReason))
    (kinds : List Kind) :
    kinds.foldl (add mapper filter) ⟨Verdict.resources earlier, skipped⟩ =
      ⟨Verdict.resources (earlier ++ verdicts mapper filter earlier kinds),
        skipped ++ Verdict.skips kinds (verdicts mapper filter earlier kinds)⟩ := by
  induction kinds generalizing earlier skipped with
  | nil => simp [verdicts]
  | cons kind rest ih =>
    rw [List.foldl_cons, add_eq, ih]
    simp only [verdicts, List.append_assoc, List.singleton_append]
    cases mapper.resolve filter (Verdict.resources earlier) kind <;> simp

/-- A schedule is what the verdicts on the request say. -/
theorem ofKinds_eq (kinds : List Kind) :
    ofKinds mapper filter kinds =
      ⟨Verdict.resources (verdicts mapper filter [] kinds),
        Verdict.skips kinds (verdicts mapper filter [] kinds)⟩ := by
  exact foldl_add_eq mapper filter [] [] kinds

/-- A schedule depends on the mappings of the requested kinds that the filter lets pass. -/
theorem ofKinds_congr {mapper other : Mapper} {filter : Filter} {kinds : List Kind}
    (h : ∀ kind ∈ kinds, Filter.Permitted filter.selectKinds filter.ignoreKinds kind.name →
      mapper kind = other kind) :
    ofKinds mapper filter kinds = ofKinds other filter kinds := by
  have hFold : ∀ s : Schedule,
      kinds.foldl (add mapper filter) s = kinds.foldl (add other filter) s := by
    induction kinds with
    | nil => exact fun _ => rfl
    | cons kind rest ih =>
      intro s
      have hAdd : add mapper filter s kind = add other filter s kind := by
        rw [add, Mapper.resolve_congr (h kind List.mem_cons_self), add]
      rw [List.foldl_cons, List.foldl_cons, hAdd]
      exact ih (fun other hOther => h other (List.mem_cons_of_mem kind hOther)) _
  exact hFold {}

/-! ## The resources of a schedule -/

theorem mem_resources_add_iff (s : Schedule) (kind : Kind) (r : Resource) :
    r ∈ (add mapper filter s kind).resources ↔
      r ∈ s.resources ∨ mapper.Leads filter kind r := by
  have hResolve := mapper.resolve_eq_ok_iff filter s.resources kind
  unfold add
  split
  · rename_i other hOther
    simp only [List.mem_append, List.mem_singleton]
    constructor
    · rintro (hScheduled | rfl)
      · exact .inl hScheduled
      · exact .inr ((hResolve r).mp hOther).1
    · rintro (hScheduled | hLeads)
      · exact .inl hScheduled
      · refine (Classical.em (r ∈ s.resources)).imp_right fun hNew => ?_
        have hSame := (hResolve r).mpr ⟨hLeads, hNew⟩
        rw [hOther] at hSame
        exact (Except.ok.inj hSame).symm
  · rename_i reason hReason
    constructor
    · exact .inl
    · rintro (hScheduled | hLeads)
      · exact hScheduled
      · refine Classical.byContradiction fun hNew => ?_
        have hSame := (hResolve r).mpr ⟨hLeads, hNew⟩
        rw [hReason] at hSame
        cases hSame

/-- The resources that are scheduled are those that a requested kind leads to. -/
theorem mem_resources_ofKinds_iff (kinds : List Kind) (r : Resource) :
    r ∈ (ofKinds mapper filter kinds).resources ↔
      ∃ kind ∈ kinds, mapper.Leads filter kind r := by
  have hFold : ∀ s : Schedule, r ∈ (kinds.foldl (add mapper filter) s).resources ↔
      r ∈ s.resources ∨ ∃ kind ∈ kinds, mapper.Leads filter kind r := by
    induction kinds with
    | nil => simp
    | cons kind rest ih =>
      intro s
      rw [List.foldl_cons, ih, mem_resources_add_iff]
      simp only [List.mem_cons, exists_eq_or_imp, or_assoc]
  simpa [ofKinds] using hFold {}

theorem nodup_resources_add {s : Schedule} (kind : Kind) (hNodup : s.resources.Nodup) :
    (add mapper filter s kind).resources.Nodup := by
  unfold add
  split
  · rename_i r hResolved
    have hNew := ((mapper.resolve_eq_ok_iff filter s.resources kind r).mp hResolved).2
    rw [(List.perm_append_singleton r s.resources).nodup_iff, List.nodup_cons]
    exact ⟨hNew, hNodup⟩
  · exact hNodup

theorem nodup_resources_ofKinds (kinds : List Kind) :
    (ofKinds mapper filter kinds).resources.Nodup := by
  have hFold : ∀ s : Schedule, s.resources.Nodup →
      (kinds.foldl (add mapper filter) s).resources.Nodup := by
    induction kinds with
    | nil => exact fun _ hNodup => hNodup
    | cons kind rest ih =>
      exact fun _ hNodup => ih _ (nodup_resources_add mapper filter kind hNodup)
  exact hFold {} List.nodup_nil

/-! ## The skipped kinds of a schedule -/

theorem mem_skipped_add_iff (s : Schedule) (kind other : Kind) (reason : SkipReason) :
    (kind, reason) ∈ (add mapper filter s other).skipped ↔
      (kind, reason) ∈ s.skipped ∨
        (kind = other ∧ mapper.resolve filter s.resources other = .error reason) := by
  unfold add
  split
  · rename_i r hResolved
    simp [hResolved]
  · rename_i found hResolved
    simp [hResolved, eq_comm]

/-- A kind is skipped for the reason that the resources scheduled before it give. -/
theorem mem_skipped_ofKinds_iff (kinds : List Kind) (kind : Kind) (reason : SkipReason) :
    (kind, reason) ∈ (ofKinds mapper filter kinds).skipped ↔
      ∃ before, before ++ [kind] <+: kinds ∧
        mapper.resolve filter (ofKinds mapper filter before).resources kind = .error reason := by
  have hFold : ∀ s : Schedule, (kind, reason) ∈ (kinds.foldl (add mapper filter) s).skipped ↔
      (kind, reason) ∈ s.skipped ∨ ∃ before, before ++ [kind] <+: kinds ∧
        mapper.resolve filter (before.foldl (add mapper filter) s).resources kind =
          .error reason := by
    induction kinds with
    | nil => simp
    | cons first rest ih =>
      intro s
      rw [List.foldl_cons, ih, mem_skipped_add_iff, or_assoc]
      refine or_congr_right ?_
      -- The kind is the first one, or what precedes it starts with the first one.
      constructor
      · rintro (⟨rfl, hReason⟩ | ⟨before, hBefore, hReason⟩)
        · exact ⟨[], by simp, hReason⟩
        · exact ⟨first :: before, by simpa using hBefore, hReason⟩
      · rintro ⟨_ | ⟨other, before⟩, hBefore, hReason⟩
        · obtain ⟨rfl, _⟩ := List.cons_prefix_cons.mp hBefore
          exact .inl ⟨rfl, hReason⟩
        · obtain ⟨rfl, hRest⟩ := List.cons_prefix_cons.mp hBefore
          exact .inr ⟨before, hRest, hReason⟩
  simpa [ofKinds] using hFold {}

end Schedule

end ClusterInventory
