import Mathlib.Data.List.Basic
import Mathlib.Data.List.Flatten
import Mathlib.Data.List.Perm.Subperm
import ClusterInventory.Proofs.Interference

/-! # Wider and narrower filters

A filter that lets less pass makes fewer list calls and collects fewer objects, though not always
in the same order: where a kind is turned away, another one that leads to its resource may be
scheduled in its place, later. So the calls of two filters are compared as sets, and the objects
by how often each of them occurs.
-/

namespace ClusterInventory

namespace Filter

structure Narrows (f other : Filter) : Prop where
  kinds : ∀ name, Permitted f.selectKinds f.ignoreKinds name →
    Permitted other.selectKinds other.ignoreKinds name
  namespaces : ∀ name, f.allowsNamespace name = true → other.allowsNamespace name = true

theorem Permitted.of_append {allow deny more : List String} {name : String}
    (h : Permitted allow (deny ++ more) name) : Permitted allow deny name :=
  ⟨fun hDenied => h.1 (List.mem_append_left more hDenied), h.2⟩

/-- More names may be allowed wherever names are allowed one by one. -/
theorem Permitted.append {allow deny more : List String} {name : String}
    (hOpen : allow = [] → more = []) (h : Permitted allow deny name) :
    Permitted (allow ++ more) deny name := by
  refine ⟨h.1, ?_⟩
  rcases h.2 with hEmpty | hName
  · exact .inl (by rw [hEmpty, hOpen hEmpty, List.append_nil])
  · exact .inr (List.mem_append_left more hName)

variable {f g : Filter}

theorem merge_narrows (hKinds : g.selectKinds = []) (hNamespaces : g.selectNamespaces = []) :
    (f.merge g).Narrows f where
  kinds name hPermitted := by
    rw [← checkKind_eq_ok_iff, checkKind_merge_eq_ok_iff, hKinds, List.append_nil] at hPermitted
    exact hPermitted.of_append
  namespaces name hAllowed := by
    rw [allowsNamespace_merge_iff, hNamespaces, List.append_nil] at hAllowed
    exact (f.allowsNamespace_iff name).mpr hAllowed.of_append

theorem narrows_merge (hKinds : g.ignoreKinds = []) (hNamespaces : g.ignoreNamespaces = [])
    (hOpenKinds : f.selectKinds = [] → g.selectKinds = [])
    (hOpenNamespaces : f.selectNamespaces = [] → g.selectNamespaces = []) :
    f.Narrows (f.merge g) where
  kinds name hPermitted := by
    rw [← checkKind_eq_ok_iff, checkKind_merge_eq_ok_iff, hKinds, List.append_nil]
    exact hPermitted.append hOpenKinds
  namespaces name hAllowed := by
    rw [allowsNamespace_merge_iff, hNamespaces, List.append_nil]
    exact ((f.allowsNamespace_iff name).mp hAllowed).append hOpenNamespaces

end Filter

/-! ## Two filters -/

theorem subperm_flatMap {α β : Type} {list more : List α} {block wider : α → List β}
    (h : list.Subperm more) (hBlocks : ∀ a, (block a).Sublist (wider a)) :
    (list.flatMap block).Subperm (more.flatMap wider) := by
  obtain ⟨part, hPerm, hPart⟩ := h
  have hSame : (list.flatMap block).Perm (part.flatMap block) := hPerm.symm.flatMap_right block
  have hWider : (part.flatMap block).Sublist (part.flatMap wider) :=
    List.Sublist.flatMap_right part fun a _ => hBlocks a
  have hMore : (part.flatMap wider).Sublist (more.flatMap wider) := hPart.flatMap wider
  exact hSame.subperm.trans (hWider.trans hMore).subperm

section Narrows

variable {filter other : Filter} (h : filter.Narrows other)

include h

theorem Mapper.Leads.mono {mapper : Mapper} {kind : Kind} {r : Resource}
    (hLeads : mapper.Leads filter kind r) : mapper.Leads other kind r :=
  ⟨h.kinds kind.name hLeads.1, hLeads.2⟩

theorem Schedule.subperm_resources (mapper : Mapper) (kinds : List Kind) :
    (ofKinds mapper filter kinds).resources.Subperm (ofKinds mapper other kinds).resources := by
  apply (nodup_resources_ofKinds mapper filter kinds).subperm
  intro r hScheduled
  obtain ⟨kind, hKind, hLeads⟩ := (mem_resources_ofKinds_iff mapper filter kinds r).mp hScheduled
  exact (mem_resources_ofKinds_iff mapper other kinds r).mpr ⟨kind, hKind, hLeads.mono h⟩

theorem Listing.kept_sublist (l : Listing) : (l.kept filter).Sublist (l.kept other) := by
  cases hAnswer : l.answer with
  | error e => simp only [kept, hAnswer, List.Sublist.refl]
  | ok objects =>
    simp only [kept, hAnswer]
    apply List.monotone_filter_right
    intro o hAllowed
    exact h.namespaces o.namespaceName hAllowed

variable (mapper : Mapper) (answer : Resource → Except RequestError (List Object))
  (kinds : List Kind)

theorem Pass.calls_subperm :
    (run mapper (.ofAnswers answer) kinds filter).calls.Subperm
      (run mapper (.ofAnswers answer) kinds other).calls := by
  rw [calls_run, calls_run]
  exact Schedule.subperm_resources h mapper kinds

theorem fetchObjects_objects_subperm :
    (fetchObjects mapper (.ofAnswers answer) kinds filter).objects.Subperm
      (fetchObjects mapper (.ofAnswers answer) kinds other).objects := by
  simp only [fetchObjects, Pass.run, Pass.report, Listing.run_ofAnswers, Listing.ofAnswers,
    List.flatMap_map]
  apply subperm_flatMap (Schedule.subperm_resources h mapper kinds)
  exact fun r => Listing.kept_sublist h ⟨r, answer r⟩

end Narrows

/-! ## Merged filters -/

open scoped Classical in
/-- Under the one filter, no resource is listed and no object is collected more often than under
the other one. -/
structure Filter.FetchesWithin (mapper : Mapper)
    (answer : Resource → Except RequestError (List Object)) (kinds : List Kind)
    (f other : Filter) : Prop where
  calls : ∀ r, (Pass.run mapper (.ofAnswers answer) kinds f).calls.count r ≤
    (Pass.run mapper (.ofAnswers answer) kinds other).calls.count r
  objects : ∀ o, (fetchObjects mapper (.ofAnswers answer) kinds f).objects.count o ≤
    (fetchObjects mapper (.ofAnswers answer) kinds other).objects.count o

theorem Filter.Narrows.fetchesWithin {f other : Filter} (h : f.Narrows other) (mapper : Mapper)
    (answer : Resource → Except RequestError (List Object)) (kinds : List Kind) :
    f.FetchesWithin mapper answer kinds other := by
  classical
  constructor
  · exact (Pass.calls_subperm h mapper answer kinds).count_le
  · exact (fetchObjects_objects_subperm h mapper answer kinds).count_le

/-- A filter that only ignores, merged into another one, makes a fetch smaller. One that only
selects makes it larger, unless it is the first to select. -/
theorem fetchObjects_monotone (mapper : Mapper)
    (answer : Resource → Except RequestError (List Object)) (kinds : List Kind) (f g : Filter) :
    (g.selectKinds = [] → g.selectNamespaces = [] →
      (f.merge g).FetchesWithin mapper answer kinds f) ∧
    (g.ignoreKinds = [] → g.ignoreNamespaces = [] →
      (g.selectKinds ≠ [] → f.selectKinds ≠ []) →
      (g.selectNamespaces ≠ [] → f.selectNamespaces ≠ []) →
      f.FetchesWithin mapper answer kinds (f.merge g)) := by
  constructor
  · intro hKinds hNamespaces
    exact (Filter.merge_narrows hKinds hNamespaces).fetchesWithin mapper answer kinds
  · intro hKinds hNamespaces hOpenKinds hOpenNamespaces
    have hNarrows : f.Narrows (f.merge g) :=
      Filter.narrows_merge hKinds hNamespaces (not_imp_not.mp hOpenKinds)
        (not_imp_not.mp hOpenNamespaces)
    exact hNarrows.fetchesWithin mapper answer kinds

/-- Two kinds lead to one resource, and the first of them is ignored: its resource is listed later
than before, but no more often. -/
theorem fetchObjects_monotone_events :
    let mapper : Mapper := fun kind =>
      let plural := if kind.name = "Incident" then "Event" else kind.name
      .ok ⟨⟨kind.group, "v1", "v1", plural, plural⟩, true, ["list"], []⟩
    let answer (_ : Resource) : Except RequestError (List Object) := .ok [default]
    let kinds : List Kind := ["Event", "Pod", "Incident", "Secret"].map fun name => ⟨"", "v1", name⟩
    let calls (f : Filter) :=
      (Pass.run mapper (.ofAnswers answer) kinds f).calls.map Resource.plural
    let f : Filter := { selectKinds := ["Event", "Pod", "Incident"] }
    let ignoring : Filter := { ignoreKinds := ["Event"] }
    let selecting : Filter := { selectKinds := ["Secret"] }
    calls f = ["Event", "Pod"] ∧ calls (f.merge ignoring) = ["Pod", "Event"] ∧
      calls (f.merge selecting) = ["Event", "Pod", "Secret"] ∧
      (f.merge ignoring).FetchesWithin mapper answer kinds f ∧
      f.FetchesWithin mapper answer kinds (f.merge selecting) := by
  intro mapper answer kinds calls f ignoring selecting
  refine ⟨by decide +kernel, by decide +kernel, by decide +kernel, ?_, ?_⟩
  · exact (fetchObjects_monotone mapper answer kinds f ignoring).1 rfl rfl
  · exact (fetchObjects_monotone mapper answer kinds f selecting).2 rfl rfl
      (fun _ => List.cons_ne_nil _ _) id

end ClusterInventory
