import ClusterInventory.Proofs.Fallback

/-! # Announced groups

A steady server answers for each group alike whenever it is asked, so that the core group and every
announced one end among the discovered groups or among the failed ones, and no group in both. How
often a group is announced does not matter, and neither does the order.
-/

namespace ClusterInventory

namespace Catalog

variable {names : List String} {answer : String → Except RequestError ApiGroup}

/-- Every group that was asked for is in one of the two tables, by what its discovery came to, and
no other group is in either. -/
structure Accounts (c : Catalog) (names : List String)
    (answer : String → Except RequestError ApiGroup) : Prop where
  groups : ∀ name g, Fields.get? name c.groups = some g ↔ name ∈ names ∧ answer name = .ok g
  failed : ∀ name text, Fields.get? name c.failed = some text ↔
    name ∈ names ∧ ∃ e, answer name = .error e ∧ text = e.message
  exactlyOne : ∀ name ∈ names,
    (name ∈ c.groups.map Prod.fst ↔ name ∉ c.failed.map Prod.fst)
  noOther : ∀ name, name ∉ names →
    name ∉ c.groups.map Prod.fst ∧ name ∉ c.failed.map Prod.fst

theorem mem_findings_iff (name : String) (result : Except RequestError ApiGroup) :
    (name, result) ∈ names.map (fun name => (name, answer name)) ↔
      name ∈ names ∧ answer name = result := by
  rw [List.mem_map]
  constructor
  · rintro ⟨_, hName, hFinding⟩
    cases hFinding
    exact ⟨hName, rfl⟩
  · rintro ⟨hName, rfl⟩
    exact ⟨name, hName, rfl⟩

theorem get?_groups_answers_iff (name : String) (g : ApiGroup) :
    Fields.get? name (ofFindings (names.map fun name => (name, answer name))).groups = some g ↔
      name ∈ names ∧ answer name = .ok g := by
  rw [get?_groups_ofFindings_eq_some_iff, Fields.isLast_iff_mem, mem_discovered_iff,
    mem_findings_iff]
  intro found other hFound hOther
  rw [mem_discovered_iff, mem_findings_iff] at hFound hOther
  exact Except.ok.inj (hFound.2.symm.trans hOther.2)

theorem get?_failed_answers_iff (name text : String) :
    Fields.get? name (ofFindings (names.map fun name => (name, answer name))).failed = some text ↔
      name ∈ names ∧ ∃ e, answer name = .error e ∧ text = e.message := by
  have hLast : ∀ e, Fields.IsLast (failures (names.map fun name => (name, answer name))) name e ↔
      name ∈ names ∧ answer name = .error e := by
    intro e
    rw [Fields.isLast_iff_mem, mem_failures_iff, mem_findings_iff]
    intro error other hError hOther
    rw [mem_failures_iff, mem_findings_iff] at hError hOther
    exact Except.error.inj (hError.2.symm.trans hOther.2)
  simp only [get?_failed_ofFindings_eq_some_iff, hLast, and_assoc, exists_and_left]

theorem accounts_ofFindings (names : List String)
    (answer : String → Except RequestError ApiGroup) :
    (ofFindings (names.map fun name => (name, answer name))).Accounts names answer where
  groups := get?_groups_answers_iff
  failed := get?_failed_answers_iff
  exactlyOne name hName := by
    simp only [Fields.mem_keys_iff, get?_groups_answers_iff, get?_failed_answers_iff, hName,
      true_and]
    cases answer name with
    | ok g => simp
    | error e => simp
  noOther name hName := by
    simp [Fields.mem_keys_iff, get?_groups_answers_iff, get?_failed_answers_iff, hName]

/-- Neither the order nor the repetition of the names shows in a catalog. -/
theorem ofFindings_congr {otherNames : List String} (h : ∀ name, name ∈ names ↔ name ∈ otherNames) :
    ofFindings (names.map fun name => (name, answer name)) =
      ofFindings (otherNames.map fun name => (name, answer name)) := by
  refine (sorted_ofFindings _).eq_of_get?_eq (sorted_ofFindings _) ?_ ?_
  · intro name
    ext g
    rw [get?_groups_answers_iff, get?_groups_answers_iff, h]
  · intro name
    ext text
    rw [get?_failed_answers_iff, get?_failed_answers_iff, h]

end Catalog

/-! ## Two servers that answer alike -/

namespace Exchange

variable {α β : Type}

def Agree (x y : Exchange α) : Prop := ∃ a, x.Yields a ∧ y.Yields a

theorem Steady.agree {x : Exchange α} (h : x.Steady) : x.Agree x := by
  obtain ⟨a, hValue⟩ := h
  exact ⟨a, hValue, hValue⟩

theorem Yields.bind_agree {x y : Exchange α} {a b : α} {next other : α → Exchange β}
    (hFirst : x.Yields a) (hOther : y.Yields b) (hNext : (next a).Agree (other b)) :
    Exchange.Agree (x >>= next) (y >>= other) := by
  obtain ⟨value, hValue, hSame⟩ := hNext
  exact ⟨value, hFirst.bind hValue, hOther.bind hSame⟩

theorem Agree.bind {x y : Exchange α} {next other : α → Exchange β} (hFirst : x.Agree y)
    (hNext : ∀ a, (next a).Agree (other a)) : Exchange.Agree (x >>= next) (y >>= other) := by
  obtain ⟨a, hValue, hSame⟩ := hFirst
  exact hValue.bind_agree hSame (hNext a)

end Exchange

/-- The path of a text goes on as the text begins. -/
theorem Uri.prefix_of_target? {start rest path : List Char} {query : Option (List Char)}
    (hStart : ∀ c ∈ start, (c ≠ '?' && c ≠ '#') = true)
    (h : target? (start ++ rest) = some (path, query)) : start <+: path := by
  unfold target? at h
  simp only [Option.ite_none_right_eq_some, Option.some.injEq, Prod.mk.injEq] at h
  obtain ⟨_, rfl, _⟩ := h
  rw [List.takeWhile_append_of_pos hStart]
  exact List.prefix_append start _

/-! ## Names that are announced once -/

namespace GroupEntry

theorem find?_name_eq_some_iff {groups : List GroupEntry} (h : (groups.map name).Nodup)
    (key : String) (g : GroupEntry) :
    groups.find? (·.name == key) = some g ↔ g ∈ groups ∧ g.name = key := by
  have hApart : groups.Pairwise fun g later => g.name = key → ¬later.name = key :=
    (List.pairwise_map.mp h).imp fun hNe hName hLater => hNe (hName.trans hLater.symm)
  rw [find?_eq_some_iff_isFirst (fun _ => beq_iff_eq), isFirst_iff_mem hApart]

/-- Groups that are announced once are found alike in every order. -/
theorem find?_eq_of_perm {groups other : List GroupEntry} (hPerm : groups.Perm other)
    (h : (groups.map name).Nodup) (key : String) :
    groups.find? (·.name == key) = other.find? (·.name == key) := by
  ext g
  rw [find?_name_eq_some_iff h,
    find?_name_eq_some_iff ((hPerm.map name).nodup_iff.mp h), hPerm.mem_iff]

end GroupEntry

namespace Server

def Elsewhere (text : String) : Prop :=
  ∀ path query, Uri.target? text.toList = some (path, query) → String.ofList path ≠ "/apis"

theorem elsewhere_append {start : String} (rest : String)
    (hStart : start.toList.all (fun c => c ≠ '?' && c ≠ '#') = true)
    (hOther : start.toList.isPrefixOf "/apis".toList = false) : Elsewhere (start ++ rest) := by
  intro path query hTarget hSame
  rw [String.toList_append] at hTarget
  have hPrefix := Uri.prefix_of_target? (List.all_eq_true.mp hStart) hTarget
  rw [← hSame, String.toList_ofList, List.isPrefixOf_iff_prefix.mpr hPrefix] at hOther
  cases hOther

theorem elsewhere_core : Elsewhere "/api" := by
  have hTarget : Uri.target? "/api".toList = some ("/api".toList, none) := by decide +kernel
  intro path query hFound
  rw [hTarget] at hFound
  cases hFound
  decide

/-- Two servers that answer alike but for the list of groups, which one of them announces in
another order. -/
structure Reorders (server other : Server) : Prop where
  answer : ∀ past path, path ≠ "/apis" →
    server.answer past (server.base ++ path) = other.answer past (other.base ++ path)
  announces : ∃ groups otherGroups, server.groupList.Yields (.ok groups) ∧
    other.groupList.Yields (.ok otherGroups) ∧ groups.Perm otherGroups ∧
    (groups.map GroupEntry.name).Nodup

section Reorders

variable {server other : Server} (hSteady : server.Steady) (hOther : other.Steady)
  (h : server.Reorders other)

include hSteady hOther h

theorem agree_get {α : Type} {text : String} (hElsewhere : Elsewhere text)
    (onBadPath : RequestError) (read : Json → Option α) :
    (server.get onBadPath read text).Agree (other.get onBadPath read text) := by
  unfold get
  split
  · exact (Exchange.steady_pure _).agree
  · rename_i path query hTarget
    have hPath := hElsewhere path query hTarget
    have hSend : (server.send path query).Agree (other.send path query) :=
      ⟨server.answer [] (server.base ++ String.ofList path), fun past => hSteady past [] _,
        fun past => (hOther past [] _).trans (h.answer [] _ hPath).symm⟩
    refine hSend.bind fun answer => ?_
    split
    · exact (Exchange.steady_pure _).agree
    · split <;> exact (Exchange.steady_pure _).agree

theorem agree_readVersions {versions : List (String × String)}
    (hElsewhere : ∀ v ∈ versions, Elsewhere v.2) :
    (server.readVersions versions).Agree (other.readVersions versions) := by
  induction versions with
  | nil => exact (Exchange.steady_pure _).agree
  | cons v rest ih =>
    have hRest := ih fun later hLater => hElsewhere later (List.mem_cons_of_mem v hLater)
    refine (agree_get hSteady hOther h (hElsewhere v List.mem_cons_self) _ _).bind fun list => ?_
    split
    · exact (Exchange.steady_pure _).agree
    · refine hRest.bind fun data => ?_
      split <;> exact (Exchange.steady_pure _).agree

theorem agree_discoverCore : server.discoverCore.Agree other.discoverCore := by
  refine (agree_get hSteady hOther h elsewhere_core _ _).bind fun versions => ?_
  split
  · exact (Exchange.steady_pure _).agree
  · exact (Exchange.steady_pure _).agree
  · refine (agree_readVersions hSteady hOther h ?_).bind fun data => (Exchange.steady_pure _).agree
    intro v hVersion
    obtain ⟨version, _, rfl⟩ := List.mem_map.mp hVersion
    exact elsewhere_append version (by decide) (by decide)

theorem agree_discoverNamed (name : String) :
    (server.discoverNamed name).Agree (other.discoverNamed name) := by
  obtain ⟨groups, otherGroups, hGroups, hOtherGroups, hPerm, hNodup⟩ := h.announces
  refine hGroups.bind_agree hOtherGroups ?_
  dsimp only
  rw [← GroupEntry.find?_eq_of_perm hPerm hNodup name]
  split
  · exact (Exchange.steady_pure _).agree
  · split
    · exact (Exchange.steady_pure _).agree
    · refine (agree_readVersions hSteady hOther h ?_).bind fun data =>
        (Exchange.steady_pure _).agree
      intro v hVersion
      obtain ⟨version, _, rfl⟩ := List.mem_map.mp hVersion
      exact elsewhere_append version.groupVersion (by decide) (by decide)

theorem agree_discoverGroup (name : String) :
    (server.discoverGroup name).Agree (other.discoverGroup name) := by
  unfold discoverGroup
  split
  · exact agree_discoverCore hSteady hOther h
  · exact agree_discoverNamed hSteady hOther h name

end Reorders

/-- A steady server serves what it answers at any time. -/
theorem Steady.serves {server : Server} (h : server.Steady) {past : List String}
    {groups : List GroupEntry} (hGroups : (server.groupList past).1 = .ok groups) :
    server.Serves (groups.map GroupEntry.name) fun name => (server.discoverGroup name past).1 where
  announces := by
    refine ⟨groups, ?_, rfl⟩
    rw [← hGroups]
    exact (steady_get h _ _ _).yields past
  answers name _ := (steady_discoverGroup h name).yields past

/-- Where the groups are announced in another order, each is discovered as before. -/
theorem Reorders.serves {server other : Server} (h : server.Reorders other)
    (hSteady : server.Steady) (hOther : other.Steady) {past : List String}
    {groups : List GroupEntry} (hGroups : (server.groupList past).1 = .ok groups) :
    ∃ otherGroups, groups.Perm otherGroups ∧
      other.Serves (otherGroups.map GroupEntry.name) fun name =>
        (server.discoverGroup name past).1 := by
  obtain ⟨announced, otherGroups, hAnnounced, hOtherGroups, hPerm, _⟩ := h.announces
  obtain rfl := Except.ok.inj (hGroups.symm.trans (hAnnounced past))
  refine ⟨otherGroups, hPerm, ⟨otherGroups, hOtherGroups, rfl⟩, fun name _ => ?_⟩
  obtain ⟨answer, hValue, hSame⟩ := agree_discoverGroup hSteady hOther h name
  rw [hValue past]
  exact hSame

end Server

structure Catalog.Alike (c other : Catalog) : Prop where
  mapper : ∀ kind, c.mapper kind = other.mapper kind
  listableKinds : c.listableKinds = other.listableKinds

namespace Cluster

/-- A discovery fails only without a list of groups. Otherwise its catalog accounts for the core
group and every announced one, and is as it would be if they were announced in another order. -/
theorem discover_accounts (c : Cluster) (hSteady : c.server.Steady) (past : List String) :
    match (c.server.groupList past).1 with
    | .error e => (c.discover past).1.value = .error e
    | .ok groups => ∃ catalog, (c.discover past).1.value = .ok catalog ∧
        catalog.Accounts ("" :: groups.map GroupEntry.name)
          (fun name => (c.server.discoverGroup name past).1) ∧
        ∀ (other : Cluster) (otherPast : List String), other.server.Steady →
          c.server.Reorders other.server →
            ∃ otherCatalog, (other.discover otherPast).1.value = .ok otherCatalog ∧
              catalog.Alike otherCatalog := by
  have hDiscover := c.discover_eq past
  cases hGroups : (c.server.groupList past).1 with
  | error e =>
    rw [hGroups] at hDiscover
    exact hDiscover
  | ok groups =>
    refine ⟨_, discover_eq_of_serves (hSteady.serves hGroups) past,
      Catalog.accounts_ofFindings _ _, ?_⟩
    intro other otherPast hOther hReorders
    obtain ⟨otherGroups, hPerm, hServes⟩ := hReorders.serves hSteady hOther hGroups
    refine ⟨_, discover_eq_of_serves hServes otherPast, ?_⟩
    rw [Catalog.ofFindings_congr fun name => ((hPerm.map GroupEntry.name).cons "").mem_iff]
    exact ⟨fun _ => rfl, rfl⟩

end Cluster

/-! ## Two groups in either order -/

/-- One of the two groups has no version, and its discovery fails. -/
def announcementDocument? (swapped : Bool) (path : String) : Option Json :=
  let version : Json :=
    .object [("groupVersion", .string "apps/v1"), ("version", .string "v1")]
  let apps : Json := .object [("name", .string "apps"), ("versions", .array [version])]
  let batch : Json := .object [("name", .string "batch"), ("versions", .array [])]
  [("/apis", .object [("groups", .array (if swapped then [batch, apps] else [apps, batch]))]),
    ("/apis/apps/v1", .object [("groupVersion", .string "apps/v1"), ("resources", .array [])])].lookup
      path

def announcements (swapped : Bool) : Cluster where
  name := "test"
  server := .ofDocuments (announcementDocument? swapped)

def appsEntry : GroupEntry := ⟨"apps", none, [⟨"apps/v1", "v1"⟩]⟩

def batchEntry : GroupEntry := ⟨"batch", none, []⟩

theorem announcements_groupList (swapped : Bool) :
    (announcements swapped).server.groupList.Yields
      (.ok (if swapped then [batchEntry, appsEntry] else [appsEntry, batchEntry])) := by
  have hRead : ∀ swapped, Server.read? (announcementDocument? swapped) GroupEntry.listOfJson?
      "/apis" = some (if swapped then [batchEntry, appsEntry] else [appsEntry, batchEntry]) := by
    decide +kernel
  exact Server.get_ofDocuments_yields _ (hRead swapped)

theorem reorders_announcements :
    (announcements false).server.Reorders (announcements true).server where
  answer past path hPath := by
    have hPassed : (path == "/apis") = false := beq_eq_false_iff_ne.mpr hPath
    simp only [announcements, Server.ofDocuments, announcementDocument?, String.empty_append,
      List.lookup_cons, hPassed]
  announces := ⟨_, _, announcements_groupList false, announcements_groupList true,
    List.Perm.swap _ _ _, by decide⟩

/-- The two clusters differ in the order of their two groups, and the same group fails in both. -/
theorem discover_announcements_accounts :
    (announcements false).server.Steady ∧ (announcements true).server.Steady ∧
      (announcements false).server.Reorders (announcements true).server ∧
      ∃ catalog otherCatalog, ((announcements false).discover []).1.value = .ok catalog ∧
        ((announcements true).discover []).1.value = .ok otherCatalog ∧
        catalog.Accounts ["", "apps", "batch"]
          (fun name => ((announcements false).server.discoverGroup name []).1) ∧
        Fields.get? "batch" catalog.failed = some "Error from discovery: Empty Api Group: batch" ∧
        "batch" ∉ catalog.groups.map Prod.fst ∧ catalog.Alike otherCatalog := by
  have hSteady : ∀ swapped, (announcements swapped).server.Steady :=
    fun swapped => Server.steady_ofDocuments (announcementDocument? swapped)
  have hGroups := announcements_groupList false []
  have hReorders := reorders_announcements
  have hBatch : ((announcements false).server.discoverGroup "batch").Yields
      (.error (.emptyGroup "batch")) := by
    have hEntry : [appsEntry, batchEntry].find? (·.name == "batch") = some batchEntry := by decide
    rw [Server.discoverGroup, if_neg (by decide)]
    refine Exchange.Yields.bind (announcements_groupList false) ?_
    simp only [Bool.false_eq_true, if_false, hEntry]
    exact Exchange.yields_pure _
  have hFirst := hSteady false
  have hSecond := hSteady true
  -- The theorem is applied to clusters of which nothing can be evaluated any more.
  generalize announcements false = c at hFirst hGroups hReorders hBatch ⊢
  generalize announcements true = other at hSecond hReorders ⊢
  have hAccounts := c.discover_accounts hFirst []
  rw [hGroups] at hAccounts
  obtain ⟨catalog, hFound, hTables, hSame⟩ := hAccounts
  obtain ⟨otherCatalog, hOtherFound, hAlike⟩ := hSame other [] hSecond hReorders
  have hFailed := (hTables.failed "batch" _).mpr ⟨by decide, _, hBatch [], rfl⟩
  have hKey := (Fields.mem_keys_iff "batch" catalog.failed).mpr ⟨_, hFailed⟩
  have hAbsent := fun hGroup => (hTables.exactlyOne "batch" (by decide)).mp hGroup hKey
  exact ⟨hFirst, hSecond, hReorders, catalog, otherCatalog, hFound, hOtherFound, hTables, hFailed,
    hAbsent, hAlike⟩

end ClusterInventory
