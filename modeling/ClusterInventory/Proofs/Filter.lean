import ClusterInventory.Filter

/-! # What filters let pass

A filter names kinds and namespaces in the same way: by an allow-list and a deny-list. Merging two
filters joins their lists, so that a deny-list of either one counts, and so does an allow-list.
-/

namespace ClusterInventory.Filter

def Permitted (allow deny : List String) (name : String) : Prop :=
  name ∉ deny ∧ (allow = [] ∨ name ∈ allow)

theorem permitted_nil (name : String) : Permitted [] [] name := ⟨List.not_mem_nil, .inl rfl⟩

theorem checkKind_eq_ok_iff (f : Filter) (kind : String) :
    f.checkKind kind = .ok () ↔ Permitted f.selectKinds f.ignoreKinds kind := by
  unfold checkKind Permitted
  split
  · rename_i hIgnored
    simp [hIgnored]
  · rename_i hIgnored
    split
    · rename_i hOther
      simp [hOther.1, hOther.2]
    · rename_i hOther
      simp only [hIgnored, not_false_eq_true, true_and, true_iff]
      by_cases hEmpty : f.selectKinds = []
      · exact .inl hEmpty
      · exact .inr (Classical.byContradiction fun hAbsent => hOther ⟨hEmpty, hAbsent⟩)

theorem allowsNamespace_iff (f : Filter) (name : String) :
    f.allowsNamespace name = true ↔ Permitted f.selectNamespaces f.ignoreNamespaces name := by
  simp [allowsNamespace, Permitted]

/-! ## Merging -/

theorem mem_extend (list more : List String) (name : String) :
    name ∈ extend list more ↔ name ∈ list ∨ name ∈ more := by
  unfold extend
  induction more generalizing list with
  | nil => simp
  | cons item rest ih =>
    rw [List.foldl_cons, ih, List.mem_cons]
    split
    · rename_i hItem
      constructor
      · rintro (hName | hName)
        · exact .inl hName
        · exact .inr (.inr hName)
      · rintro (hName | rfl | hName)
        · exact .inl hName
        · exact .inl hItem
        · exact .inr hName
    · rw [List.mem_append, List.mem_singleton, or_assoc]

theorem extend_eq_nil_iff (list more : List String) :
    extend list more = [] ↔ list ++ more = [] := by
  simp only [List.eq_nil_iff_forall_not_mem, mem_extend, List.mem_append]

/-- Lists that are extended permit what they would permit written one after the other. -/
theorem permitted_extend_iff (allow moreAllowed deny moreDenied : List String) (name : String) :
    Permitted (extend allow moreAllowed) (extend deny moreDenied) name ↔
      Permitted (allow ++ moreAllowed) (deny ++ moreDenied) name := by
  simp only [Permitted, extend_eq_nil_iff, mem_extend, List.mem_append]

theorem checkKind_merge_eq_ok_iff (f g : Filter) (kind : String) :
    (f.merge g).checkKind kind = .ok () ↔
      Permitted (f.selectKinds ++ g.selectKinds) (f.ignoreKinds ++ g.ignoreKinds) kind := by
  rw [checkKind_eq_ok_iff]
  exact permitted_extend_iff f.selectKinds g.selectKinds f.ignoreKinds g.ignoreKinds kind

theorem allowsNamespace_merge_iff (f g : Filter) (name : String) :
    (f.merge g).allowsNamespace name = true ↔
      Permitted (f.selectNamespaces ++ g.selectNamespaces)
        (f.ignoreNamespaces ++ g.ignoreNamespaces) name := by
  rw [allowsNamespace_iff]
  exact permitted_extend_iff f.selectNamespaces g.selectNamespaces f.ignoreNamespaces
    g.ignoreNamespaces name

end ClusterInventory.Filter
