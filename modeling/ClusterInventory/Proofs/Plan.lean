import ClusterInventory.Connection
import ClusterInventory.Proofs.First

/-! # Which source a plan attempts

A plan attempts one source, the first that applies, and comes to what that source comes to. What
stands before it in the plan does not apply, and what stands after it is never looked at, not even
after a failure.
-/

namespace ClusterInventory

namespace ConnectionSource

inductive Applies : ConnectionSource → Prop
  | kubeconfig (path context : Option String) : Applies (.kubeconfig path context)
  | localDev (path : Option String) : Applies (.localDev true path)
  | injected (endpoint : Kubeconfig.Endpoint) : Applies (.injected (some endpoint))
  | inCluster : Applies .inCluster

theorem isApplicable_iff (s : ConnectionSource) : s.isApplicable = true ↔ s.Applies := by
  constructor
  · intro hApplicable
    cases s with
    | kubeconfig path context => exact .kubeconfig path context
    | localDev enabled path =>
      obtain rfl : enabled = true := hApplicable
      exact .localDev path
    | injected endpoint =>
      obtain ⟨endpoint, rfl⟩ := Option.isSome_iff_exists.mp hApplicable
      exact .injected endpoint
    | inCluster => exact .inCluster
  · rintro (_ | _ | _ | _) <;> rfl

/-! ## One source -/

/-- A connection from the source of this name, or an error that is not that of an empty plan. -/
inductive Settles (name : String) : Except ClusterError Connection → Prop
  | connected {c : Connection} (hSource : c.source = name) : Settles name (.ok c)
  | failed {e : ClusterError} (hError : e ≠ .noSource) : Settles name (.error e)

theorem settles_fromKubeconfig (env : Environment) (fs : FileSystem) (source : String)
    (kubeconfig : Except KubeconfigError Kubeconfig) (context : Option String) :
    Settles source (fromKubeconfig env fs source kubeconfig context) := by
  cases kubeconfig with
  | error e => exact .failed nofun
  | ok k =>
    simp only [fromKubeconfig]
    split
    · exact .failed nofun
    · exact .connected rfl

theorem Applies.settles {s : ConnectionSource} (h : s.Applies) (env : Environment)
    (fs : FileSystem) : Settles s.name (s.resolve env fs) := by
  cases h with
  | kubeconfig path context => cases path <;> apply settles_fromKubeconfig
  | localDev path =>
    cases path with
    | some path => apply settles_fromKubeconfig
    | none =>
      rw [resolve]
      split
      · apply settles_fromKubeconfig
      · exact .failed nofun
  | injected endpoint => exact .connected rfl
  | inCluster =>
    rw [resolve]
    split
    · exact .connected rfl
    · exact .failed nofun

end ConnectionSource

namespace ConnectionPlan

/-! ## The first source that applies -/

theorem select_eq_some_iff (p : ConnectionPlan) (s : ConnectionSource) :
    p.select = some s ↔ IsFirst ConnectionSource.Applies p.sources s :=
  find?_eq_some_iff_isFirst ConnectionSource.isApplicable_iff p.sources s

theorem select_eq_none_iff (p : ConnectionPlan) :
    p.select = none ↔ ∀ s ∈ p.sources, ¬s.Applies := by
  simp only [select, List.find?_eq_none, ConnectionSource.isApplicable_iff]

/-- The source that is resolved is the one that would be selected. -/
theorem resolve_eq_select (p : ConnectionPlan) (env : Environment) (fs : FileSystem) :
    p.resolve env fs = p.select.elim (.error .noSource) (·.resolve env fs) := by
  rw [resolve, select]
  cases p.sources.find? ConnectionSource.isApplicable <;> rfl

theorem resolveLog_eq_select (p : ConnectionPlan) :
    p.resolveLog = (p.select.map fun s => ⟨.debug, "kollect_kube::client",
      "Resolving cluster connection from " ++ s.name ++ " source"⟩).toList := by
  rw [resolveLog, select]
  cases p.sources.find? ConnectionSource.isApplicable <;> rfl

/-! ## The whole plan -/

structure Refuses (p : ConnectionPlan) : Prop where
  select : p.select = none
  log : p.resolveLog = []
  resolve : ∀ env fs, p.resolve env fs = .error .noSource

structure Attempts (p : ConnectionPlan) (s : ConnectionSource) : Prop where
  select : p.select = some s
  log : p.resolveLog =
    [⟨.debug, "kollect_kube::client",
      "Resolving cluster connection from " ++ s.name ++ " source"⟩]
  resolve : ∀ env fs, p.resolve env fs = s.resolve env fs
  source : ∀ env fs c, p.resolve env fs = .ok c → c.source = s.name
  ne_noSource : ∀ env fs, p.resolve env fs ≠ .error .noSource

theorem refuses_of_select {p : ConnectionPlan} (h : p.select = none) : p.Refuses where
  select := h
  log := by rw [resolveLog_eq_select, h]; rfl
  resolve env fs := by rw [resolve_eq_select, h]; rfl

theorem attempts_of_isFirst {p : ConnectionPlan} {s : ConnectionSource}
    (h : IsFirst ConnectionSource.Applies p.sources s) : p.Attempts s := by
  have hSelect := (p.select_eq_some_iff s).mpr h
  have hResolve : ∀ env fs, p.resolve env fs = s.resolve env fs := by
    intro env fs
    rw [resolve_eq_select, hSelect]
    rfl
  have hSettles : ∀ env fs, ConnectionSource.Settles s.name (p.resolve env fs) := by
    intro env fs
    rw [hResolve]
    exact h.holds.settles env fs
  refine ⟨hSelect, ?_, hResolve, ?_, ?_⟩
  · rw [resolveLog_eq_select, hSelect]
    rfl
  · intro env fs c hResolved
    cases hResolved ▸ hSettles env fs with
    | connected hSource => exact hSource
  · intro env fs hResolved
    cases hResolved ▸ hSettles env fs with
    | failed hError => exact hError rfl

/-- Without a source that applies a plan refuses to connect. Otherwise it attempts the first one,
and so does every other plan in which that one is the first. -/
theorem refuses_or_attempts_first (p : ConnectionPlan) :
    ((∀ s ∈ p.sources, ¬s.Applies) ∧ p.Refuses) ∨
      ∃ s, IsFirst ConnectionSource.Applies p.sources s ∧ p.Attempts s ∧
        ∀ other : ConnectionPlan, IsFirst ConnectionSource.Applies other.sources s →
          ∀ env fs, other.resolve env fs = p.resolve env fs := by
  cases hSelect : p.select with
  | none => exact .inl ⟨p.select_eq_none_iff.mp hSelect, refuses_of_select hSelect⟩
  | some s =>
    have hFirst := (p.select_eq_some_iff s).mp hSelect
    refine .inr ⟨s, hFirst, attempts_of_isFirst hFirst, ?_⟩
    intro other hOther env fs
    rw [(attempts_of_isFirst hOther).resolve, (attempts_of_isFirst hFirst).resolve]

end ConnectionPlan

end ClusterInventory
