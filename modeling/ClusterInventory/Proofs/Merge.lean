import Mathlib.Data.List.Basic
import ClusterInventory.Proofs.Filter

/-! # Merged filters

A merged filter turns away what either filter ignores, and where one of them selects, what neither
selects. Each of its lists comes from the same list of both filters: what is new in the other one
follows in the order in which it is first named there.
-/

namespace ClusterInventory.Filter

/-! ## Decisions -/

theorem checkKind_eq_ignored_iff (f : Filter) (kind : String) :
    f.checkKind kind = .error .ignored ↔ kind ∈ f.ignoreKinds := by
  unfold checkKind
  split
  · simp [*]
  · split <;> simp [*]

theorem checkKind_eq_notSelected_iff (f : Filter) (kind : String) :
    f.checkKind kind = .error .notSelected ↔
      kind ∉ f.ignoreKinds ∧ f.selectKinds ≠ [] ∧ kind ∉ f.selectKinds := by
  unfold checkKind
  split
  · simp [*]
  · split <;> simp [*]

structure Joins (merged f g : Filter) : Prop where
  ignored : ∀ kind, merged.checkKind kind = .error .ignored ↔
    kind ∈ f.ignoreKinds ∨ kind ∈ g.ignoreKinds
  notSelected : ∀ kind, merged.checkKind kind = .error .notSelected ↔
    ¬(kind ∈ f.ignoreKinds ∨ kind ∈ g.ignoreKinds) ∧
      ¬(f.selectKinds = [] ∧ g.selectKinds = []) ∧
      ¬(kind ∈ f.selectKinds ∨ kind ∈ g.selectKinds)
  passes : ∀ kind, merged.checkKind kind = .ok () ↔
    ¬(kind ∈ f.ignoreKinds ∨ kind ∈ g.ignoreKinds) ∧
      ((f.selectKinds = [] ∧ g.selectKinds = []) ∨ kind ∈ f.selectKinds ∨ kind ∈ g.selectKinds)
  allows : ∀ name, merged.allowsNamespace name = true ↔
    ¬(name ∈ f.ignoreNamespaces ∨ name ∈ g.ignoreNamespaces) ∧
      ((f.selectNamespaces = [] ∧ g.selectNamespaces = []) ∨
        name ∈ f.selectNamespaces ∨ name ∈ g.selectNamespaces)

theorem permitted_append_iff (allow moreAllowed deny moreDenied : List String) (name : String) :
    Permitted (allow ++ moreAllowed) (deny ++ moreDenied) name ↔
      ¬(name ∈ deny ∨ name ∈ moreDenied) ∧
        ((allow = [] ∧ moreAllowed = []) ∨ name ∈ allow ∨ name ∈ moreAllowed) := by
  rw [Permitted, List.mem_append, List.mem_append, List.append_eq_nil_iff]

theorem joins_merge (f g : Filter) : (f.merge g).Joins f g where
  ignored kind := by
    rw [checkKind_eq_ignored_iff]
    exact mem_extend f.ignoreKinds g.ignoreKinds kind
  notSelected kind := by
    have hEmpty : (f.merge g).selectKinds = [] ↔ f.selectKinds = [] ∧ g.selectKinds = [] := by
      rw [← List.append_eq_nil_iff]
      exact extend_eq_nil_iff f.selectKinds g.selectKinds
    have hSelected := mem_extend f.selectKinds g.selectKinds kind
    have hIgnored := mem_extend f.ignoreKinds g.ignoreKinds kind
    rw [checkKind_eq_notSelected_iff, ne_eq, hEmpty]
    exact and_congr (not_congr hIgnored) (and_congr_right fun _ => not_congr hSelected)
  passes kind := (checkKind_merge_eq_ok_iff f g kind).trans (permitted_append_iff _ _ _ _ kind)
  allows name := (allowsNamespace_merge_iff f g name).trans (permitted_append_iff _ _ _ _ name)

theorem Joins.symm {merged f g : Filter} (h : merged.Joins f g) : merged.Joins g f where
  ignored kind := by rw [h.ignored, or_comm]
  notSelected kind := by simp only [h.notSelected, or_comm, and_comm]
  passes kind := by simp only [h.passes, or_comm, and_comm]
  allows name := by simp only [h.allows, or_comm, and_comm]

/-- Filters that stand for the same ones decide alike. -/
theorem Joins.checkKind_eq {merged other f g : Filter} (h : merged.Joins f g)
    (hOther : other.Joins f g) (kind : String) : merged.checkKind kind = other.checkKind kind := by
  cases hDecision : other.checkKind kind with
  | ok _ => exact (h.passes kind).mpr ((hOther.passes kind).mp hDecision)
  | error rejection =>
    cases rejection with
    | ignored => exact (h.ignored kind).mpr ((hOther.ignored kind).mp hDecision)
    | notSelected => exact (h.notSelected kind).mpr ((hOther.notSelected kind).mp hDecision)

theorem Joins.allowsNamespace_eq {merged other f g : Filter} (h : merged.Joins f g)
    (hOther : other.Joins f g) (name : String) :
    merged.allowsNamespace name = other.allowsNamespace name := by
  rw [Bool.eq_iff_iff, h.allows, hOther.allows]

/-- A merged filter decides by both filters, whichever of them comes first, and what one of them
ignores it does not let pass. -/
theorem merge_decides (f g : Filter) :
    (f.merge g).Joins f g ∧
      (∀ kind, (f.merge g).checkKind kind = (g.merge f).checkKind kind) ∧
      (∀ name, (f.merge g).allowsNamespace name = (g.merge f).allowsNamespace name) ∧
      (∀ kind, kind ∈ f.ignoreKinds ∨ kind ∈ g.ignoreKinds →
        (f.merge g).checkKind kind ≠ .ok ()) ∧
      (∀ name, name ∈ f.ignoreNamespaces ∨ name ∈ g.ignoreNamespaces →
        (f.merge g).allowsNamespace name = false) := by
  have hJoins := joins_merge f g
  have hOther := (joins_merge g f).symm
  refine ⟨hJoins, hJoins.checkKind_eq hOther, hJoins.allowsNamespace_eq hOther, ?_, ?_⟩
  · intro kind hIgnored hPasses
    exact ((hJoins.passes kind).mp hPasses).1 hIgnored
  · intro name hIgnored
    rw [Bool.eq_false_iff, ne_eq, hJoins.allows]
    exact fun hAllowed => hAllowed.1 hIgnored

/-! ## Names that are new -/

def added (known : List String) : List String → List String
  | [] => []
  | item :: rest => if item ∈ known then added known rest else item :: added (known ++ [item]) rest

theorem mem_added_iff (known more : List String) (name : String) :
    name ∈ added known more ↔ name ∈ more ∧ name ∉ known := by
  induction more generalizing known with
  | nil => simp [added]
  | cons item rest ih =>
    rw [added, List.mem_cons]
    split
    · rename_i hKnown
      rw [ih]
      constructor
      · rintro ⟨hRest, hNew⟩
        exact ⟨.inr hRest, hNew⟩
      · rintro ⟨rfl | hRest, hNew⟩
        · exact absurd hKnown hNew
        · exact ⟨hRest, hNew⟩
    · rename_i hUnknown
      rw [List.mem_cons, ih, List.mem_append, List.mem_singleton, not_or]
      constructor
      · rintro (rfl | ⟨hRest, hNew, _⟩)
        · exact ⟨.inl rfl, hUnknown⟩
        · exact ⟨.inr hRest, hNew⟩
      · rintro ⟨hItem | hRest, hNew⟩
        · exact .inl hItem
        · by_cases hName : name = item
          · exact .inl hName
          · exact .inr ⟨hRest, hNew, hName⟩

theorem pairwise_idxOf_cons {item : String} {rest names : List String} (hOther : item ∉ names)
    (h : names.Pairwise fun a b => rest.idxOf a < rest.idxOf b) :
    names.Pairwise fun a b => (item :: rest).idxOf a < (item :: rest).idxOf b := by
  refine h.imp_of_mem ?_
  intro a b hMember hMemberOther hBefore
  have hFirst : item ≠ a := fun hSame => hOther (hSame ▸ hMember)
  have hSecond : item ≠ b := fun hSame => hOther (hSame ▸ hMemberOther)
  rw [List.idxOf_cons_ne _ hFirst, List.idxOf_cons_ne _ hSecond]
  omega

theorem pairwise_added (known more : List String) :
    (added known more).Pairwise fun a b => more.idxOf a < more.idxOf b := by
  induction more generalizing known with
  | nil => exact List.Pairwise.nil
  | cons item rest ih =>
    rw [added]
    -- Either way the item is not among what follows, so that all of that moves by one place.
    split
    · rename_i hKnown
      refine pairwise_idxOf_cons ?_ (ih known)
      exact fun hMember => ((mem_added_iff known rest item).mp hMember).2 hKnown
    · have hOther : item ∉ added (known ++ [item]) rest := by
        rw [mem_added_iff]
        exact fun hMember => hMember.2 (List.mem_append_right _ (List.mem_singleton_self item))
      refine List.pairwise_cons.mpr ⟨?_, pairwise_idxOf_cons hOther (ih _)⟩
      intro name hMember
      have hNe : item ≠ name := fun hSame => hOther (hSame ▸ hMember)
      rw [List.idxOf_cons_self, List.idxOf_cons_ne _ hNe]
      omega

/-! ## Extended lists -/

theorem extend_cons (list : List String) (item : String) (rest : List String) :
    extend list (item :: rest) = extend (if item ∈ list then list else list ++ [item]) rest := rfl

theorem extend_append (list more rest : List String) :
    extend list (more ++ rest) = extend (extend list more) rest :=
  List.foldl_append

theorem extend_eq_append (list more : List String) :
    extend list more = list ++ added list more := by
  induction more generalizing list with
  | nil => exact (List.append_nil list).symm
  | cons item rest ih =>
    rw [extend_cons, added]
    split
    · exact ih list
    · rw [ih, List.append_assoc, List.singleton_append]

example : extend ["Secret"] ["Event", "Secret", "Event"] = ["Secret", "Event"] := by decide

theorem extend_eq_self {list more : List String} (h : ∀ name ∈ more, name ∈ list) :
    extend list more = list := by
  induction more with
  | nil => rfl
  | cons item rest ih =>
    rw [extend_cons, if_pos (h item List.mem_cons_self)]
    exact ih fun name hName => h name (List.mem_cons_of_mem item hName)

/-- Names that the list holds already need not be in what it is extended by. -/
theorem extend_added {known list : List String} (h : ∀ name ∈ known, name ∈ list)
    (more : List String) : extend list (added known more) = extend list more := by
  induction more generalizing known list with
  | nil => rfl
  | cons item rest ih =>
    rw [added]
    split
    · rename_i hKnown
      rw [ih h, extend_cons, if_pos (h item hKnown)]
    · rw [extend_cons, extend_cons]
      -- What becomes known here has just become a part of the list.
      refine ih fun name hName => ?_
      rcases List.mem_append.mp hName with hKnown | hItem
      · split
        · exact h name hKnown
        · exact List.mem_append_left _ (h name hKnown)
      · obtain rfl := List.mem_singleton.mp hItem
        split
        · assumption
        · exact List.mem_append_right _ hItem

theorem extend_extend (list more rest : List String) :
    extend (extend list more) rest = extend list (extend more rest) := by
  have hKnown : ∀ name ∈ more, name ∈ extend list more :=
    fun name hName => (mem_extend list more name).mpr (.inr hName)
  calc
    extend (extend list more) rest = extend (extend list more) (added more rest) :=
      (extend_added hKnown rest).symm
    _ = extend list (more ++ added more rest) := (extend_append list more _).symm
    _ = extend list (extend more rest) := by rw [← extend_eq_append]

/-! ## The four lists -/

inductive Part where
  | selectKinds
  | ignoreKinds
  | selectNamespaces
  | ignoreNamespaces

def names (f : Filter) : Part → List String
  | .selectKinds => f.selectKinds
  | .ignoreKinds => f.ignoreKinds
  | .selectNamespaces => f.selectNamespaces
  | .ignoreNamespaces => f.ignoreNamespaces

theorem ext_names {f g : Filter} (h : ∀ part, f.names part = g.names part) : f = g := by
  obtain ⟨_, _, _, _⟩ := f
  obtain ⟨_, _, _, _⟩ := g
  rw [mk.injEq]
  exact ⟨h .selectKinds, h .ignoreKinds, h .selectNamespaces, h .ignoreNamespaces⟩

@[simp] theorem names_merge (f g : Filter) (part : Part) :
    (f.merge g).names part = extend (f.names part) (g.names part) := by
  cases part <;> rfl

theorem merge_assoc (f g h : Filter) : (f.merge g).merge h = f.merge (g.merge h) := by
  refine ext_names fun part => ?_
  simp only [names_merge, extend_extend]

theorem merge_self (f : Filter) : f.merge f = f := by
  refine ext_names fun part => ?_
  rw [names_merge]
  exact extend_eq_self fun _ hName => hName

theorem merge_merge_self (f g : Filter) : (f.merge g).merge g = f.merge g := by
  rw [merge_assoc, merge_self]

theorem merge_empty (f : Filter) : f.merge {} = f := rfl

/-- The names of `more` that `list` lacks, as they follow it. -/
structure Follows (list more new : List String) : Prop where
  mem_iff : ∀ name, name ∈ new ↔ name ∈ more ∧ name ∉ list
  nodup : new.Nodup
  order : new.Pairwise fun a b => more.idxOf a < more.idxOf b

theorem follows_added (list more : List String) : Follows list more (added list more) where
  mem_iff := mem_added_iff list more
  nodup := (pairwise_added list more).imp fun hBefore hSame => by
    rw [hSame] at hBefore
    exact Nat.lt_irrefl _ hBefore
  order := pairwise_added list more

/-- Merging is associative, a filter that is merged again changes nothing, and neither does an empty
one. Each list stays at the front of the merged one, which depends on no other list. -/
theorem merge_laws (f g h : Filter) :
    (f.merge g).merge h = f.merge (g.merge h) ∧ (f.merge g).merge g = f.merge g ∧
      f.merge f = f ∧ f.merge {} = f ∧
      (∀ part, ∃ new, (f.merge g).names part = f.names part ++ new ∧
        Follows (f.names part) (g.names part) new) ∧
      (∀ part (other more : Filter), other.names part = f.names part →
        more.names part = g.names part →
        (other.merge more).names part = (f.merge g).names part) := by
  refine ⟨merge_assoc f g h, merge_merge_self f g, merge_self f, merge_empty f, ?_, ?_⟩
  · intro part
    refine ⟨added (f.names part) (g.names part), ?_, follows_added _ _⟩
    rw [names_merge, extend_eq_append]
  · intro part other more hOther hMore
    rw [names_merge, names_merge, hOther, hMore]

end ClusterInventory.Filter
