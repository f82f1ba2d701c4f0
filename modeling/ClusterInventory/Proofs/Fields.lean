import ClusterInventory.Json.Basic

/-! # Sorted tables

A table that is built by insertion has its keys in ascending order. What it holds under one key is
left alone by what happens under the others, so that a key can as well be erased before the others
are inserted. A table holds no more than what can be looked up in it.
-/

namespace ClusterInventory.Fields

variable {α : Type}

def Sorted (fields : Fields α) : Prop := fields.Pairwise fun e other => e.1 < other.1

theorem sorted_nil : Sorted ([] : Fields α) := List.Pairwise.nil

theorem mem_of_mem_insert {key : String} {value : α} {fields : Fields α} {e : String × α}
    (h : e ∈ insert key value fields) : e = (key, value) ∨ e ∈ fields := by
  induction fields with
  | nil => exact .inl (List.mem_singleton.mp h)
  | cons first rest ih =>
    simp only [insert] at h
    split at h
    · exact List.mem_cons.mp h
    · split at h
      · exact (List.mem_cons.mp h).imp_right (List.mem_cons_of_mem first)
      · rcases List.mem_cons.mp h with rfl | hRest
        · exact .inr List.mem_cons_self
        · exact (ih hRest).imp_right (List.mem_cons_of_mem first)

theorem sorted_insert (key : String) (value : α) {fields : Fields α} (h : Sorted fields) :
    Sorted (insert key value fields) := by
  induction fields with
  | nil => exact List.pairwise_singleton _ _
  | cons first rest ih =>
    obtain ⟨hFirst, hRest⟩ := List.pairwise_cons.mp h
    simp only [insert]
    split
    · rename_i hBefore
      refine List.pairwise_cons.mpr ⟨fun e hMember => ?_, h⟩
      rcases List.mem_cons.mp hMember with rfl | hLater
      · exact hBefore
      · exact String.lt_trans hBefore (hFirst e hLater)
    · split
      · rename_i hSame
        subst hSame
        exact List.pairwise_cons.mpr ⟨hFirst, hRest⟩
      · rename_i hAfter hOther
        refine List.pairwise_cons.mpr ⟨fun e hMember => ?_, ih hRest⟩
        rcases mem_of_mem_insert hMember with rfl | hLater
        · exact Std.lt_of_le_of_ne (String.not_lt.mp hAfter) (Ne.symm hOther)
        · exact hFirst e hLater

/-! ## Inserted keys -/

theorem get?_insert_self (key : String) (value : α) (fields : Fields α) :
    get? key (insert key value fields) = some value := by
  induction fields with
  | nil => simp [get?, insert]
  | cons first rest ih =>
    simp only [insert]
    split
    · simp [get?]
    · split
      · simp [get?]
      · rename_i hOther
        have hPassed : (key == first.1) = false := beq_eq_false_iff_ne.mpr hOther
        simpa only [get?, List.lookup_cons, hPassed] using ih

theorem get?_insert_ne {key other : String} (h : other ≠ key) (value : α) (fields : Fields α) :
    get? other (insert key value fields) = get? other fields := by
  have hNew : (other == key) = false := beq_eq_false_iff_ne.mpr h
  induction fields with
  | nil => simp [get?, insert, h]
  | cons first rest ih =>
    obtain ⟨k, v⟩ := first
    simp only [insert]
    split
    · simp only [get?, List.lookup_cons, hNew]
    · split
      · rename_i hSame
        simp only [get?, List.lookup_cons, ← hSame, hNew]
      · simp only [get?] at ih
        simp only [get?, List.lookup_cons, ih]

/-! ## Erased keys -/

theorem erase_cons_self (key : String) (value : α) (fields : Fields α) :
    erase key ((key, value) :: fields) = erase key fields := by
  simp [erase]

theorem erase_cons_ne {key : String} {e : String × α} (h : e.1 ≠ key) (fields : Fields α) :
    erase key (e :: fields) = e :: erase key fields := by
  simp [erase, h]

theorem erase_insert_self (key : String) (value : α) (fields : Fields α) :
    erase key (insert key value fields) = erase key fields := by
  induction fields with
  | nil => exact erase_cons_self key value []
  | cons first rest ih =>
    simp only [insert]
    split
    · exact erase_cons_self key value _
    · split
      · rename_i hSame
        subst hSame
        rw [erase_cons_self, erase_cons_self]
      · rename_i hOther
        rw [erase_cons_ne (Ne.symm hOther), erase_cons_ne (Ne.symm hOther), ih]

/-- A key below all others is inserted at the front. -/
theorem insert_eq_cons {key : String} (value : α) {fields : Fields α}
    (h : ∀ e ∈ fields, key < e.1) : insert key value fields = (key, value) :: fields := by
  cases fields with
  | nil => rfl
  | cons first rest => simp only [insert, h first List.mem_cons_self, if_true]

theorem erase_insert_ne {key erased : String} (value : α) {fields : Fields α} (h : key ≠ erased)
    (hSorted : Sorted fields) :
    erase erased (insert key value fields) = insert key value (erase erased fields) := by
  induction fields with
  | nil => exact erase_cons_ne h []
  | cons first rest ih =>
    obtain ⟨hFirst, hRest⟩ := List.pairwise_cons.mp hSorted
    simp only [insert]
    split
    · rename_i hBefore
      -- The key is below all that is left after the erasure.
      rw [erase_cons_ne h, insert_eq_cons]
      intro e hMember
      rcases List.mem_cons.mp (List.mem_filter.mp hMember).1 with rfl | hLater
      · exact hBefore
      · exact String.lt_trans hBefore (hFirst e hLater)
    · rename_i hAfter
      split
      · rename_i hSame
        have hKept : first.1 ≠ erased := hSame ▸ h
        rw [erase_cons_ne h, erase_cons_ne hKept]
        simp only [insert, hSame, String.lt_irrefl, if_false, if_true]
      · rename_i hOther
        by_cases hErased : first.1 = erased
        · subst hErased
          rw [erase_cons_self, erase_cons_self, ih hRest]
        · rw [erase_cons_ne hErased, erase_cons_ne hErased, ih hRest]
          simp only [insert, hAfter, hOther, if_false]

theorem erase_eq_self {key : String} {fields : Fields α} (h : ∀ e ∈ fields, e.1 ≠ key) :
    erase key fields = fields :=
  List.filter_eq_self.mpr fun e he => bne_iff_ne.mpr (h e he)

/-- A key that was not there can be erased again, also after a later key was inserted. -/
theorem erase_insert_insert {key other : String} (hBefore : key < other) (value later : α)
    {fields : Fields α} (h : ∀ e ∈ fields, e.1 ≠ key) :
    erase key (insert other later (insert key value fields)) = insert other later fields := by
  have hOther : other ≠ key := fun hSame => String.lt_irrefl key (hSame ▸ hBefore)
  have hAfter : ¬other < key := fun hLess => String.lt_irrefl key (String.lt_trans hBefore hLess)
  have hKept {rest : Fields α} (hRest : ∀ e ∈ rest, e.1 ≠ key) :
      erase key (insert other later rest) = insert other later rest :=
    erase_eq_self fun e he => (mem_of_mem_insert he).elim (fun hNew => hNew ▸ hOther) (hRest e)
  induction fields with
  | nil => simp [insert, erase, hAfter, hOther]
  | cons first rest ih =>
    have hFirst := h first List.mem_cons_self
    have hRest : ∀ e ∈ rest, e.1 ≠ key := fun e he => h e (List.mem_cons_of_mem first he)
    by_cases hHere : key < first.1
    · rw [insert, if_pos hHere, insert, if_neg hAfter, if_neg hOther, erase_cons_self, hKept h]
    · have hLess : first.1 < other :=
        String.lt_trans (Std.lt_of_le_of_ne (String.not_lt.mp hHere) hFirst) hBefore
      have hPast : ¬other < first.1 := fun hMore =>
        String.lt_irrefl other (String.lt_trans hMore hLess)
      have hDiffers : other ≠ first.1 := fun hSame => String.lt_irrefl other (hSame ▸ hLess)
      simp only [insert, hHere, Ne.symm hFirst, hPast, hDiffers, if_false]
      rw [erase_cons_ne hFirst, ih hRest]

/-- What is held under another key outlasts an erasure. -/
theorem get?_erase_ne {key erased : String} (h : key ≠ erased) (fields : Fields α) :
    get? key (erase erased fields) = get? key fields := by
  induction fields with
  | nil => rfl
  | cons first rest ih =>
    obtain ⟨k, value⟩ := first
    unfold get? at ih
    by_cases hErased : k = erased
    · subst hErased
      have hOther : (key == k) = false := beq_eq_false_iff_ne.mpr h
      simp only [get?, erase_cons_self, List.lookup_cons, hOther, ih]
    · simp only [get?, erase_cons_ne (e := (k, value)) hErased, List.lookup_cons, ih]

/-! ## Lookups -/

theorem mem_keys_iff (key : String) (fields : Fields α) :
    key ∈ fields.map Prod.fst ↔ ∃ value, get? key fields = some value := by
  rw [← Option.isSome_iff_exists, get?, List.mem_map]
  constructor
  · rintro ⟨⟨_, value⟩, hMember, rfl⟩
    rw [Option.isSome_iff_ne_none]
    intro hNone
    exact absurd rfl (bne_iff_ne.mp (List.lookup_eq_none_iff.mp hNone _ hMember))
  · intro hSome
    obtain ⟨value, hValue⟩ := Option.isSome_iff_exists.mp hSome
    obtain ⟨before, after, rfl, _⟩ := List.lookup_eq_some_iff.mp hValue
    exact ⟨(key, value), List.mem_append_right _ List.mem_cons_self, rfl⟩

theorem Sorted.mem_iff {fields : Fields α} (h : Sorted fields) (key : String) (value : α) :
    (key, value) ∈ fields ↔ get? key fields = some value := by
  induction fields with
  | nil => simp [get?]
  | cons first rest ih =>
    obtain ⟨k, v⟩ := first
    obtain ⟨hFirst, hRest⟩ := List.pairwise_cons.mp h
    by_cases hKey : key = k
    · subst hKey
      have hAbsent : (key, value) ∉ rest := fun hMember => String.lt_irrefl key (hFirst _ hMember)
      simp [get?, hAbsent, eq_comm]
    · have hOther : (key == k) = false := beq_eq_false_iff_ne.mpr hKey
      rw [List.mem_cons, ih hRest]
      simp [get?, List.lookup_cons, hOther, hKey]

theorem Sorted.nodup {fields : Fields α} (h : Sorted fields) : fields.Nodup := by
  refine List.Pairwise.imp ?_ h
  rintro e _ hBefore rfl
  exact String.lt_irrefl e.1 hBefore

/-- Two tables that answer every lookup alike are one. -/
theorem eq_of_get?_eq {fields other : Fields α} (h : Sorted fields) (hOther : Sorted other)
    (hSame : ∀ key, get? key fields = get? key other) : fields = other := by
  have hPerm : fields.Perm other := by
    rw [List.perm_ext_iff_of_nodup h.nodup hOther.nodup]
    rintro ⟨key, value⟩
    rw [h.mem_iff, hOther.mem_iff, hSame]
  have hOrder : fields.Pairwise fun e later => e.1 < later.1 := h
  refine hPerm.eq_of_pairwise ?_ hOrder hOther
  intro e later _ _ hBefore hAfter
  exact absurd (String.lt_trans hBefore hAfter) (String.lt_irrefl e.1)

/-! ## Tables of lists -/

def IsLast (entries : List (String × α)) (key : String) (value : α) : Prop :=
  ∃ before after, entries = before ++ (key, value) :: after ∧ ∀ e ∈ after, e.1 ≠ key

theorem IsLast.mem {entries : List (String × α)} {key : String} {value : α}
    (h : IsLast entries key value) : (key, value) ∈ entries := by
  obtain ⟨before, after, rfl, _⟩ := h
  exact List.mem_append_right before List.mem_cons_self

theorem isLast_cons_iff (e : String × α) (rest : List (String × α)) (key : String) (value : α) :
    IsLast (e :: rest) key value ↔
      IsLast rest key value ∨ (e = (key, value) ∧ ∀ later ∈ rest, later.1 ≠ key) := by
  constructor
  · rintro ⟨before, after, hEntries, hAfter⟩
    cases before with
    | nil =>
      obtain ⟨rfl, rfl⟩ := List.cons.inj hEntries
      exact .inr ⟨rfl, hAfter⟩
    | cons first front =>
      exact .inl ⟨front, after, (List.cons.inj hEntries).2, hAfter⟩
  · rintro (⟨before, after, rfl, hAfter⟩ | ⟨rfl, hRest⟩)
    · exact ⟨e :: before, after, rfl, hAfter⟩
    · exact ⟨[], rest, rfl, hRest⟩

theorem exists_isLast_iff (entries : List (String × α)) (key : String) :
    (∃ value, IsLast entries key value) ↔ ∃ value, (key, value) ∈ entries := by
  constructor
  · rintro ⟨value, hLast⟩
    exact ⟨value, hLast.mem⟩
  · rintro ⟨value, hMember⟩
    induction entries generalizing value with
    | nil => cases hMember
    | cons e rest ih =>
      -- The entry is the last of its key unless there is a later one.
      by_cases hLater : ∃ later ∈ rest, later.1 = key
      · obtain ⟨⟨_, v⟩, hRest, rfl⟩ := hLater
        obtain ⟨last, hLast⟩ := ih v hRest
        exact ⟨last, (isLast_cons_iff e rest _ last).mpr (.inl hLast)⟩
      · have hNone : ∀ later ∈ rest, later.1 ≠ key :=
          fun later hRest hKey => hLater ⟨later, hRest, hKey⟩
        rcases List.mem_cons.mp hMember with rfl | hRest
        · exact ⟨value, (isLast_cons_iff _ rest key value).mpr (.inr ⟨rfl, hNone⟩)⟩
        · exact absurd rfl (hNone _ hRest)

theorem isLast_iff_mem {entries : List (String × α)} {key : String}
    (h : ∀ value other, (key, value) ∈ entries → (key, other) ∈ entries → value = other)
    (value : α) : IsLast entries key value ↔ (key, value) ∈ entries := by
  constructor
  · exact IsLast.mem
  · intro hMember
    obtain ⟨last, hLast⟩ := (exists_isLast_iff entries key).mpr ⟨value, hMember⟩
    obtain rfl := h value last hMember hLast.mem
    exact hLast

theorem isLast_map_iff {β : Type} (f : α → β) (entries : List (String × α)) (key : String)
    (value : β) : IsLast (entries.map fun e => (e.1, f e.2)) key value ↔
      ∃ a, IsLast entries key a ∧ value = f a := by
  induction entries with
  | nil => simp [IsLast]
  | cons e rest ih =>
    simp only [List.map_cons, isLast_cons_iff, ih, or_and_right, exists_or, List.forall_mem_map]
    refine or_congr_right ?_
    obtain ⟨k, v⟩ := e
    simp only [Prod.mk.injEq]
    constructor
    · rintro ⟨⟨rfl, rfl⟩, hRest⟩
      exact ⟨v, ⟨⟨rfl, rfl⟩, hRest⟩, rfl⟩
    · rintro ⟨a, ⟨⟨rfl, rfl⟩, hRest⟩, rfl⟩
      exact ⟨⟨rfl, rfl⟩, hRest⟩

/-- What a table holds under a key is the last value that was inserted there. -/
theorem get?_ofList_eq_some_iff (entries : List (String × α)) (key : String) (value : α) :
    get? key (ofList entries) = some value ↔ IsLast entries key value := by
  have hFold : ∀ fields : Fields α,
      get? key (entries.foldl (fun acc e => insert e.1 e.2 acc) fields) = some value ↔
        IsLast entries key value ∨
          (get? key fields = some value ∧ ∀ e ∈ entries, e.1 ≠ key) := by
    induction entries with
    | nil => simp [IsLast]
    | cons e rest ih =>
      intro fields
      rw [List.foldl_cons, ih, isLast_cons_iff, or_assoc]
      refine or_congr_right ?_
      obtain ⟨k, v⟩ := e
      by_cases hKey : k = key
      · subst hKey
        simp [get?_insert_self]
      · simp [get?_insert_ne (Ne.symm hKey), hKey]
  rw [ofList, hFold]
  simp [get?]

theorem sorted_ofList (entries : List (String × α)) : Sorted (ofList entries) := by
  have hFold : ∀ fields : Fields α, Sorted fields →
      Sorted (entries.foldl (fun acc e => insert e.1 e.2 acc) fields) := by
    induction entries with
    | nil => exact fun _ hSorted => hSorted
    | cons e rest ih => exact fun _ hSorted => ih _ (sorted_insert e.1 e.2 hSorted)
  exact hFold [] sorted_nil

end ClusterInventory.Fields
