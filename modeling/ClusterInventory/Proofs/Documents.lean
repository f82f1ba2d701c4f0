import ClusterInventory.Proofs.Survey

/-! # Discovery from documents

Where the documents of a group are always there, its discovery comes to what they say: the entries
of each version, by the versions' rank. Versions that are already in the order of their rank stay
as they are.
-/

namespace ClusterInventory

theorem ApiGroup.ofVersions_eq {versions : List VersionData} (preferred : Option String)
    (h : versions.Pairwise fun v other =>
      (Version.ofText v.version).before (Version.ofText other.version) = true) :
    ofVersions versions preferred = ⟨versions, preferred⟩ := by
  rw [ofVersions, List.mergeSort_of_pairwise h]

namespace Server

variable {server : Server}

def HasList (server : Server) (path : String) (list : ResourceList) : Prop :=
  (server.get .badPath ResourceList.ofJson? path).Yields (.ok list)

theorem readVersions_yields {versions : List (String × String)} (lists : String → ResourceList)
    (h : ∀ v ∈ versions, server.HasList v.2 (lists v.1)) :
    (server.readVersions versions).Yields
      (.ok (versions.map fun v => ⟨v.1, (lists v.1).mappings⟩)) := by
  induction versions with
  | nil => exact Exchange.yields_pure _
  | cons v rest ih =>
    refine (h v List.mem_cons_self).bind ?_
    exact (ih fun other hOther => h other (List.mem_cons_of_mem v hOther)).bind
      (Exchange.yields_pure _)

theorem discoverCore_yields {versions : List String} (lists : String → ResourceList)
    (hVersions : (server.get .badPath readCoreVersions "/api").Yields (.ok versions))
    (hSome : versions ≠ []) (hLists : ∀ v ∈ versions, server.HasList ("/api/" ++ v) (lists v)) :
    (server.discoverGroup "").Yields
      (.ok (.ofVersions (versions.map fun v => ⟨v, (lists v).mappings⟩) (some coreVersion))) := by
  refine Exchange.Yields.bind hVersions ?_
  cases versions with
  | nil => exact absurd rfl hSome
  | cons first rest =>
    refine Exchange.Yields.bind (readVersions_yields lists ?_) ?_
    · intro v hVersion
      obtain ⟨version, hMember, rfl⟩ := List.mem_map.mp hVersion
      exact hLists version hMember
    · rw [List.map_map]
      exact Exchange.yields_pure _

theorem discoverCore_yields_singleton {version : String} {list : ResourceList}
    (hVersions : (server.get .badPath readCoreVersions "/api").Yields (.ok [version]))
    (hList : server.HasList ("/api/" ++ version) list) :
    (server.discoverGroup "").Yields
      (.ok ⟨[⟨version, list.mappings⟩], some coreVersion⟩) := by
  have hFound := discoverCore_yields (fun _ => list) hVersions (List.cons_ne_nil _ _)
    (List.forall_mem_singleton.mpr hList)
  rwa [List.map_singleton, ApiGroup.ofVersions_eq _ (List.pairwise_singleton _ _)] at hFound

theorem discoverCore_yields_error {e : RequestError}
    (h : (server.get .badPath readCoreVersions "/api").Yields (.error e)) :
    (server.discoverGroup "").Yields (.error e) :=
  Exchange.Yields.bind h (Exchange.yields_pure _)

theorem discoverNamed_yields {groups : List GroupEntry} {g : GroupEntry}
    (lists : String → ResourceList) (hGroups : server.groupList.Yields (.ok groups))
    (hName : g.name ≠ "") (hFound : groups.find? (·.name == g.name) = some g)
    (hSome : g.versions ≠ [])
    (hLists : ∀ v ∈ g.versions, server.HasList ("/apis/" ++ v.groupVersion) (lists v.version)) :
    (server.discoverGroup g.name).Yields
      (.ok (.ofVersions (g.versions.map fun v => ⟨v.version, (lists v.version).mappings⟩)
        (g.preferred.map GroupVersion.version))) := by
  rw [discoverGroup, if_neg hName]
  refine Exchange.Yields.bind hGroups ?_
  simp only [hFound, List.isEmpty_iff, hSome, if_false]
  refine Exchange.Yields.bind (readVersions_yields lists ?_) ?_
  · intro v hVersion
    obtain ⟨version, hMember, rfl⟩ := List.mem_map.mp hVersion
    exact hLists version hMember
  · rw [List.map_map]
    exact Exchange.yields_pure _

/-- A server that announces one group with its versions by rank. -/
theorem serves_singleton {g : GroupEntry} {core : Except RequestError ApiGroup}
    (lists : String → ResourceList) (hGroups : server.groupList.Yields (.ok [g]))
    (hCore : (server.discoverGroup "").Yields core) (hName : g.name ≠ "") (hSome : g.versions ≠ [])
    (hRank : g.versions.Pairwise fun v other =>
      (Version.ofText v.version).before (Version.ofText other.version) = true)
    (hLists : ∀ v ∈ g.versions, server.HasList ("/apis/" ++ v.groupVersion) (lists v.version)) :
    server.Serves [g.name] fun name =>
      if name = "" then core
      else .ok ⟨g.versions.map fun v => ⟨v.version, (lists v.version).mappings⟩,
        g.preferred.map GroupVersion.version⟩ := by
  refine ⟨⟨[g], hGroups, rfl⟩, fun name hAsked => ?_⟩
  rw [List.mem_cons, List.mem_singleton] at hAsked
  rcases hAsked with rfl | rfl
  · exact hCore
  · have hFound := discoverNamed_yields lists hGroups hName
      (List.find?_cons_of_pos (beq_self_eq_true _)) hSome hLists
    have hServed : (g.versions.map fun v =>
        VersionData.mk v.version (lists v.version).mappings).Pairwise fun v other =>
          (Version.ofText v.version).before (Version.ofText other.version) = true :=
      List.pairwise_map.mpr hRank
    rw [ApiGroup.ofVersions_eq _ hServed] at hFound
    rwa [if_neg hName]

/-! ## Servers of documents -/

/-- A server that holds documents, and refuses what it does not hold. -/
def ofDocuments (document? : String → Option Json) : Server where
  answer := fun _ path =>
    match document? path with
    | some document => .reply 200 document.compact
    | none => .reply 404 ""

def read? {α : Type} (document? : String → Option Json) (read : Json → Option α) (text : String) :
    Option α := do
  let (path, _) ← Uri.target? text.toList
  let document ← document? (String.ofList path)
  read (← Json.parse? document.compact)

section Documents

variable {α : Type} {document? : String → Option Json} {read : Json → Option α} {text : String}

theorem get_ofDocuments_yields (onBadPath : RequestError) {value : α}
    (h : read? document? read text = some value) :
    ((ofDocuments document?).get onBadPath read text).Yields (.ok value) := by
  obtain ⟨⟨path, query⟩, hTarget, hRest⟩ := Option.bind_eq_some_iff.mp h
  obtain ⟨document, hDocument, hRead⟩ := Option.bind_eq_some_iff.mp hRest
  intro past
  have hRead : (Json.parse? document.compact).bind read = some value := hRead
  simp [get, hTarget, send, ofDocuments, hDocument, bodyOf, hRead]

theorem get_ofDocuments_yields_error (onBadPath : RequestError) {path : List Char}
    {query : Option (List Char)} (hTarget : Uri.target? text.toList = some (path, query))
    (hMissing : document? (String.ofList path) = none) :
    ((ofDocuments document?).get onBadPath read text).Yields
      (.error (.refused (Refusal.ofBody 404 ""))) := by
  intro past
  simp [get, hTarget, send, ofDocuments, hMissing, bodyOf]

end Documents

end Server

end ClusterInventory
