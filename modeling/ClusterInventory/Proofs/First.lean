/-! # First entries

Where a list is searched, the first entry with a property counts. Others may have it as well, but
they stand behind it.
-/

namespace ClusterInventory

variable {α : Type}

def IsFirst (p : α → Prop) (entries : List α) (a : α) : Prop :=
  ∃ before after, entries = before ++ a :: after ∧ p a ∧ ∀ other ∈ before, ¬p other

variable {p : α → Prop} {entries : List α}

theorem IsFirst.holds {a : α} (h : IsFirst p entries a) : p a := by
  obtain ⟨_, _, _, hFirst, _⟩ := h
  exact hFirst

theorem IsFirst.mem {a : α} (h : IsFirst p entries a) : a ∈ entries := by
  obtain ⟨before, _, rfl, _, _⟩ := h
  exact List.mem_append_right before List.mem_cons_self

theorem find?_eq_some_iff_isFirst {test : α → Bool} (hTest : ∀ a, test a = true ↔ p a)
    (entries : List α) (a : α) : entries.find? test = some a ↔ IsFirst p entries a := by
  rw [List.find?_eq_some_iff_append, hTest]
  simp only [Bool.not_eq_true', Bool.eq_false_iff, ne_eq, hTest]
  constructor
  · rintro ⟨hFirst, before, after, hEntries, hBefore⟩
    exact ⟨before, after, hEntries, hFirst, hBefore⟩
  · rintro ⟨before, after, hEntries, hFirst, hBefore⟩
    exact ⟨hFirst, before, after, hEntries, hBefore⟩

/-- Where one entry has the property at most, that one is the first. -/
theorem isFirst_iff_mem (h : entries.Pairwise fun a later => p a → ¬p later) (a : α) :
    IsFirst p entries a ↔ a ∈ entries ∧ p a := by
  constructor
  · intro hFirst
    exact ⟨hFirst.mem, hFirst.holds⟩
  · rintro ⟨hMember, ha⟩
    obtain ⟨before, after, rfl⟩ := List.append_of_mem hMember
    refine ⟨before, after, rfl, ha, ?_⟩
    intro other hOther hp
    obtain ⟨_, _, hApart⟩ := List.pairwise_append.mp h
    exact hApart other hOther a List.mem_cons_self hp ha

end ClusterInventory
