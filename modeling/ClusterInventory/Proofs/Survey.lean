import ClusterInventory.Proofs.Command
import ClusterInventory.Proofs.Fields

/-! # Surveys and what they leave in the catalog

A survey asks for the core group and for each announced group. Its findings enter the catalog one by
one, each under the name of its group: a group counts as failed if any finding of its name is an
error, and what is kept of the other groups is what their own findings make of it.
-/

namespace ClusterInventory

abbrev Finding := String × Except RequestError ApiGroup

/-! ## Answers for all times -/

def Exchange.Yields {α : Type} (x : Exchange α) (a : α) : Prop := ∀ past, (x past).1 = a

def Exchange.Ensures {α : Type} (x : Exchange α) (P : α → Prop) : Prop := ∀ past, P (x past).1

namespace Exchange

variable {α β : Type}

theorem yields_pure (a : α) : (pure a : Exchange α).Yields a := fun _ => rfl

theorem Yields.bind {x : Exchange α} {a : α} {next : α → Exchange β} {b : β} (hFirst : x.Yields a)
    (hNext : (next a).Yields b) : Exchange.Yields (x >>= next) b := by
  intro past
  rw [bind_apply, hFirst past]
  exact hNext _

theorem ensures_true (x : Exchange α) : x.Ensures fun _ => True := fun _ => trivial

theorem ensures_pure {P : α → Prop} {a : α} (h : P a) : (pure a : Exchange α).Ensures P :=
  fun _ => h

theorem Ensures.bind {x : Exchange α} {next : α → Exchange β} {P : α → Prop} {Q : β → Prop}
    (hFirst : x.Ensures P) (hNext : ∀ a, P a → (next a).Ensures Q) :
    Exchange.Ensures (x >>= next) Q :=
  fun past => hNext _ (hFirst past) _

end Exchange

namespace Server

/-- What a server is understood to say comes from a document. -/
theorem get_ensures {α : Type} (server : Server) (onBadPath : RequestError)
    (read : Json → Option α) (text : String) :
    (server.get onBadPath read text).Ensures fun answer =>
      ∀ a, answer = .ok a → ∃ v, read v = some a := by
  unfold get
  split
  · exact Exchange.ensures_pure nofun
  · refine (Exchange.ensures_true _).bind fun answer _ => ?_
    split
    · exact Exchange.ensures_pure nofun
    · split
      · rename_i hRead
        obtain ⟨v, -, hRead⟩ := Option.bind_eq_some_iff.mp hRead
        refine Exchange.ensures_pure fun a hSame => ⟨v, ?_⟩
        rw [hRead, Except.ok.inj hSame]
      · exact Exchange.ensures_pure nofun

/-- What a server serves at all times: the names of the groups that it announces, and an answer to
the discovery of the core group and of each announced group. -/
structure Serves (server : Server) (names : List String)
    (answer : String → Except RequestError ApiGroup) : Prop where
  announces : ∃ groups, server.groupList.Yields (.ok groups) ∧ groups.map GroupEntry.name = names
  answers : ∀ name ∈ "" :: names, (server.discoverGroup name).Yields (answer name)

variable {server : Server} {names : List String} {answer : String → Except RequestError ApiGroup}

theorem discoverGroups_yields {asked : List String}
    (h : ∀ name ∈ asked, (server.discoverGroup name).Yields (answer name)) :
    (server.discoverGroups asked).Yields (asked.map fun name => (name, answer name)) := by
  induction asked with
  | nil => exact Exchange.yields_pure []
  | cons name rest ih =>
    have hRest := ih fun other hOther => h other (List.mem_cons_of_mem name hOther)
    exact (h name List.mem_cons_self).bind (hRest.bind (Exchange.yields_pure _))

theorem Serves.survey_yields (h : server.Serves names answer) :
    server.survey.Yields (.ok (("" :: names).map fun name => (name, answer name))) := by
  obtain ⟨groups, hGroups, rfl⟩ := h.announces
  exact hGroups.bind ((discoverGroups_yields h.answers).bind (Exchange.yields_pure _))

def Found (server : Server) (finding : Finding) : Prop :=
  ∃ earlier, finding.2 = (server.discoverGroup finding.1 earlier).1

theorem found_of_discoverGroups (names : List String) :
    (server.discoverGroups names).Ensures fun findings =>
      ∀ finding ∈ findings, server.Found finding := by
  induction names with
  | nil => exact Exchange.ensures_pure nofun
  | cons name rest ih =>
    have hFirst : (server.discoverGroup name).Ensures fun answer => server.Found (name, answer) :=
      fun past => ⟨past, rfl⟩
    refine hFirst.bind fun answer hFound => ih.bind fun findings hRest => Exchange.ensures_pure ?_
    exact List.forall_mem_cons.mpr ⟨hFound, hRest⟩

theorem found_of_survey : server.survey.Ensures fun answer =>
    ∀ findings, answer = .ok findings → ∀ finding ∈ findings, server.Found finding := by
  refine (Exchange.ensures_true _).bind fun groups _ => ?_
  split
  · exact Exchange.ensures_pure nofun
  · refine (found_of_discoverGroups _).bind fun findings hFound => Exchange.ensures_pure ?_
    rintro _ ⟨⟩
    exact hFound

end Server

theorem Cluster.discover_eq_of_serves {c : Cluster} {names : List String}
    {answer : String → Except RequestError ApiGroup} (h : c.server.Serves names answer)
    (past : List String) :
    (c.discover past).1.value =
      .ok (Catalog.ofFindings (("" :: names).map fun name => (name, answer name))) := by
  rw [c.discover_value_eq, h.survey_yields past]
  rfl

namespace Catalog

/-! ## Sorted tables -/

structure Sorted (c : Catalog) : Prop where
  groups : Fields.Sorted c.groups
  failed : Fields.Sorted c.failed

theorem Sorted.add {c : Catalog} (h : c.Sorted) (finding : Finding) : (c.add finding).Sorted := by
  obtain ⟨name, answer⟩ := finding
  cases answer with
  | ok g => exact ⟨Fields.sorted_insert name g h.groups, h.failed⟩
  | error e => exact ⟨h.groups, Fields.sorted_insert name e.message h.failed⟩

theorem Sorted.eq_of_get?_eq {c other : Catalog} (h : c.Sorted) (hOther : other.Sorted)
    (hGroups : ∀ name, Fields.get? name c.groups = Fields.get? name other.groups)
    (hFailed : ∀ name, Fields.get? name c.failed = Fields.get? name other.failed) : c = other := by
  obtain ⟨groups, failed⟩ := c
  obtain ⟨otherGroups, otherFailed⟩ := other
  rw [mk.injEq]
  exact ⟨Fields.eq_of_get?_eq h.groups hOther.groups hGroups,
    Fields.eq_of_get?_eq h.failed hOther.failed hFailed⟩

/-! ## Tables of a catalog -/

def discovered (findings : List Finding) : List (String × ApiGroup) :=
  findings.filterMap fun finding => finding.2.toOption.map fun g => (finding.1, g)

def failures (findings : List Finding) : List (String × RequestError) :=
  findings.filterMap fun finding =>
    match finding.2 with
    | .ok _ => none
    | .error e => some (finding.1, e)

theorem mem_discovered_iff (findings : List Finding) (group : String) (g : ApiGroup) :
    (group, g) ∈ discovered findings ↔ (group, .ok g) ∈ findings := by
  rw [discovered, List.mem_filterMap]
  constructor
  · rintro ⟨⟨name, _ | found⟩, hFinding, hSome⟩
    · cases hSome
    · cases hSome
      exact hFinding
  · exact fun hFinding => ⟨_, hFinding, rfl⟩

theorem mem_failures_iff (findings : List Finding) (group : String) (e : RequestError) :
    (group, e) ∈ failures findings ↔ (group, .error e) ∈ findings := by
  rw [failures, List.mem_filterMap]
  constructor
  · rintro ⟨⟨name, _ | found⟩, hFinding, hSome⟩
    · cases hSome
      exact hFinding
    · cases hSome
  · exact fun hFinding => ⟨_, hFinding, rfl⟩

theorem ofFindings_eq (findings : List Finding) :
    ofFindings findings = ⟨Fields.ofList (discovered findings),
      Fields.ofList ((failures findings).map fun e => (e.1, e.2.message))⟩ := by
  have hFold : ∀ c : Catalog, findings.foldl add c =
      ⟨(discovered findings).foldl (fun acc e => Fields.insert e.1 e.2 acc) c.groups,
        ((failures findings).map fun e => (e.1, e.2.message)).foldl
          (fun acc e => Fields.insert e.1 e.2 acc) c.failed⟩ := by
    induction findings with
    | nil => exact fun _ => rfl
    | cons finding rest ih =>
      intro c
      obtain ⟨name, _ | g⟩ := finding
      · exact ih _
      · exact ih _
  exact hFold {}

theorem sorted_ofFindings (findings : List Finding) : (ofFindings findings).Sorted := by
  rw [ofFindings_eq]
  exact ⟨Fields.sorted_ofList _, Fields.sorted_ofList _⟩

/-- Of the discoveries of one group the last that succeeded counts. -/
theorem get?_groups_ofFindings_eq_some_iff (findings : List Finding) (group : String)
    (g : ApiGroup) : Fields.get? group (ofFindings findings).groups = some g ↔
      Fields.IsLast (discovered findings) group g := by
  rw [ofFindings_eq]
  exact Fields.get?_ofList_eq_some_iff _ group g

theorem mem_findings_of_get?_groups {findings : List Finding} {name : String} {g : ApiGroup}
    (h : Fields.get? name (ofFindings findings).groups = some g) : (name, .ok g) ∈ findings :=
  (mem_discovered_iff findings name g).mp
    ((get?_groups_ofFindings_eq_some_iff findings name g).mp h).mem

/-- Of the errors of one group the last counts. -/
theorem get?_failed_ofFindings_eq_some_iff (findings : List Finding) (group text : String) :
    Fields.get? group (ofFindings findings).failed = some text ↔
      ∃ e, Fields.IsLast (failures findings) group e ∧ text = e.message := by
  rw [ofFindings_eq]
  exact (Fields.get?_ofList_eq_some_iff _ group text).trans (Fields.isLast_map_iff _ _ group text)

def Fails (findings : List Finding) (group : String) : Prop := ∃ e, (group, .error e) ∈ findings

theorem exists_isLast_failures_iff (findings : List Finding) (group : String) :
    (∃ e, Fields.IsLast (failures findings) group e) ↔ Fails findings group := by
  simp only [Fields.exists_isLast_iff, mem_failures_iff, Fails]

theorem get?_failed_ofFindings_eq_none_iff (findings : List Finding) (group : String) :
    Fields.get? group (ofFindings findings).failed = none ↔ ¬Fails findings group := by
  rw [← exists_isLast_failures_iff, Option.eq_none_iff_forall_ne_some]
  simp only [ne_eq, get?_failed_ofFindings_eq_some_iff]
  constructor
  · rintro hNone ⟨e, hLast⟩
    exact hNone e.message ⟨e, hLast, rfl⟩
  · rintro hNone _ ⟨e, hLast, _⟩
    exact hNone ⟨e, hLast⟩

theorem groups_ofFindings_eq_nil {findings : List Finding}
    (h : ∀ finding ∈ findings, ∃ e, finding.2 = .error e) : (ofFindings findings).groups = [] := by
  have hNone : discovered findings = [] := by
    rw [discovered, List.filterMap_eq_nil_iff]
    intro finding hFinding
    obtain ⟨e, hError⟩ := h finding hFinding
    rw [hError]
    rfl
  rw [ofFindings_eq, hNone]
  rfl

/-! ## The other groups -/

variable (group : String)

def beside (c : Catalog) : Catalog where
  groups := Fields.erase group c.groups
  failed := Fields.erase group c.failed

theorem beside_add_self (c : Catalog) (answer : Except RequestError ApiGroup) :
    (c.add (group, answer)).beside group = c.beside group := by
  cases answer with
  | ok g => simp only [add, beside, Fields.erase_insert_self]
  | error e => simp only [add, beside, Fields.erase_insert_self]

theorem beside_add_ne {c : Catalog} (h : c.Sorted) {finding : Finding} (hName : finding.1 ≠ group) :
    (c.add finding).beside group = (c.beside group).add finding := by
  obtain ⟨name, answer⟩ := finding
  cases answer with
  | ok g => simp only [add, beside, Fields.erase_insert_ne g hName h.groups]
  | error e => simp only [add, beside, Fields.erase_insert_ne e.message hName h.failed]

/-- The rest of a catalog is what the findings about the other groups make of it. -/
theorem beside_ofFindings (findings : List Finding) :
    (ofFindings findings).beside group =
      ofFindings (findings.filter fun finding => finding.1 != group) := by
  have hFold : ∀ c : Catalog, c.Sorted → (findings.foldl add c).beside group =
      (findings.filter fun finding => finding.1 != group).foldl add (c.beside group) := by
    induction findings with
    | nil => exact fun _ _ => rfl
    | cons finding rest ih =>
      intro c hSorted
      rw [List.foldl_cons, ih _ (hSorted.add finding)]
      by_cases hName : finding.1 = group
      · obtain ⟨name, answer⟩ := finding
        subst hName
        rw [beside_add_self, List.filter_cons_of_neg (by simp)]
      · rw [beside_add_ne group hSorted hName, List.filter_cons_of_pos (by simpa using hName),
          List.foldl_cons]
  exact hFold {} ⟨Fields.sorted_nil, Fields.sorted_nil⟩

/-- A kind of another group is mapped as if the group were not there. -/
theorem mapper_beside (c : Catalog) {kind : Kind} (h : kind.group ≠ group) :
    (c.beside group).mapper kind = c.mapper kind := by
  simp only [mapper, beside, Fields.get?_erase_ne h]

end Catalog

end ClusterInventory
