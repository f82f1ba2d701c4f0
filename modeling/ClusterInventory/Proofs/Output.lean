import ClusterInventory.Proofs.Collection
import ClusterInventory.Proofs.Command
import ClusterInventory.Proofs.Fields
import ClusterInventory.Proofs.Json.Reading
import ClusterInventory.Proofs.Survey
import ClusterInventory.Proofs.Yaml.Stream

/-! # Taking the output apart

The stream of documents and the array hold the same objects in the same order, and each of the two
can be taken apart again. Without the field managers the objects are as they were but for those.
-/

namespace ClusterInventory

/-! ## Field managers -/

def Metadata.Apart (m : Metadata) : Prop := ∀ e ∈ m.others, e.1 ≠ "managedFields"

theorem Metadata.apart_ofFields (fields : Fields Json) : (Metadata.ofFields fields).Apart := by
  intro e he
  have hKept := (List.mem_filter.mp he).1
  exact bne_iff_ne.mp (List.mem_filter.mp hKept).2

theorem Metadata.apart_of_ofJson? {v : Json} {m : Metadata} (h : Metadata.ofJson? v = some m) :
    m.Apart := by
  unfold Metadata.ofJson? at h
  split at h
  · cases h
    exact Metadata.apart_ofFields _
  · cases h

theorem Object.apart_of_ofJson? {v : Json} {o : Object} (h : Object.ofJson? v = some o) :
    o.metadata.Apart := by
  unfold Object.ofJson? at h
  split at h
  · dsimp only at h
    split at h
    · cases h
      exact fun e he => absurd he List.not_mem_nil
    · obtain ⟨m, hMetadata, hObject⟩ := Option.map_eq_some_iff.mp h
      cases hObject
      exact Metadata.apart_of_ofJson? hMetadata
    · cases h
  · cases h

/-- An object without its field managers: nothing else is different, in the object and in what is
written for it. -/
structure Object.Strips (before after : Object) : Prop where
  types : after.types = before.types
  data : after.data = before.data
  namespaceName : after.metadata.namespaceName = before.metadata.namespaceName
  others : after.metadata.others = before.metadata.others
  managedFields : after.metadata.managedFields = none
  written : ∃ front metadata back,
    before.toJson = .object (front ++ ("metadata", .object metadata) :: back) ∧
    after.toJson =
      .object (front ++ ("metadata", .object (Fields.erase "managedFields" metadata)) :: back)

theorem Metadata.erase_managedFields {m : Metadata} (h : m.Apart) :
    ∃ fields, m.toJson = .object fields ∧ { m with managedFields := none }.toJson =
      .object (Fields.erase "managedFields" fields) := by
  refine ⟨_, rfl, ?_⟩
  have hLast : ∀ e ∈ m.others, e.1 ≠ "managedFields" := h
  have hBefore : "managedFields" < "namespace" := by decide
  have hOther : "namespace" ≠ "managedFields" := by decide
  obtain ⟨namespaceName, managedFields, others⟩ := m
  cases namespaceName with
  | none =>
    cases managedFields with
    | none => simp [Metadata.toJson, Fields.erase_eq_self hLast]
    | some v => simp [Metadata.toJson, Fields.erase_insert_self, Fields.erase_eq_self hLast]
  | some s =>
    cases managedFields with
    | none =>
      have hNone : ∀ e ∈ Fields.insert "namespace" (.string s) others, e.1 ≠ "managedFields" :=
        fun e he => (Fields.mem_of_mem_insert he).elim (fun hNew => hNew ▸ hOther) (hLast e)
      simp [Metadata.toJson, Fields.erase_eq_self hNone]
    | some v => simp [Metadata.toJson, Fields.erase_insert_insert hBefore v (.string s) hLast]

/-- What is written in front of the metadata depends on the type only. -/
theorem Object.exists_front (types : Option TypeMeta) : ∃ front, ∀ metadata data,
    Object.toJson ⟨types, metadata, data⟩ =
      .object (front ++ ("metadata", metadata.toJson) :: data) := by
  cases types with
  | none => exact ⟨[], fun _ _ => rfl⟩
  | some t =>
    exact ⟨[("apiVersion", .string t.apiVersion), ("kind", .string t.kind)], fun _ _ => rfl⟩

theorem Object.strips_stripManagedFields {o : Object} (h : o.metadata.Apart) :
    o.Strips o.stripManagedFields where
  types := rfl
  data := rfl
  namespaceName := rfl
  others := rfl
  managedFields := rfl
  written := by
    obtain ⟨fields, hBefore, hAfter⟩ := Metadata.erase_managedFields h
    obtain ⟨front, hFront⟩ := Object.exists_front o.types
    refine ⟨front, fields, o.data, ?_, ?_⟩
    · rw [← hBefore]
      exact hFront o.metadata o.data
    · rw [← hAfter]
      exact hFront { o.metadata with managedFields := none } o.data

theorem Object.Strips.readable {before after : Object} (h : before.Strips after) {limit : Nat}
    (hReadable : Json.Readable limit before.toJson) : Json.Readable limit after.toJson := by
  obtain ⟨front, metadata, back, hBefore, hAfter⟩ := h.written
  rw [hBefore] at hReadable
  rw [hAfter]
  cases hReadable with
  | number hNumber => cases hNumber
  | object hFields =>
    refine .object fun e he => ?_
    rcases List.mem_append.mp he with hFront | hRest
    · exact hFields e (List.mem_append_left _ hFront)
    · rcases List.mem_cons.mp hRest with rfl | hBack
      · have hMetadata := hFields ("metadata", .object metadata)
          (List.mem_append_right front List.mem_cons_self)
        cases hMetadata with
        | number hNumber => cases hNumber
        | object hInner => exact .object fun f hf => hInner f (List.mem_filter.mp hf).1
      · exact hFields e (List.mem_append_right front (List.mem_cons_of_mem _ hBack))

/-! ## Objects of a fetch -/

theorem Object.apart_of_mapM {items : List Json} {objects : List Object}
    (h : items.mapM Object.ofJson? = some objects) : ∀ o ∈ objects, o.metadata.Apart := by
  induction items generalizing objects with
  | nil =>
    obtain rfl : [] = objects := Option.some.inj h
    exact fun o ho => absurd ho List.not_mem_nil
  | cons v rest ih =>
    rw [List.mapM_cons] at h
    obtain ⟨first, hFirst, h⟩ := Option.bind_eq_some_iff.mp h
    obtain ⟨more, hMore, h⟩ := Option.bind_eq_some_iff.mp h
    obtain rfl : first :: more = objects := Option.some.inj h
    exact List.forall_mem_cons.mpr ⟨Object.apart_of_ofJson? hFirst, ih hMore⟩

theorem Object.apart_normalize {o : Object} (h : o.metadata.Apart) (r : Resource) :
    (o.normalize r).metadata.Apart := by
  rw [Metadata.Apart, (o.completes_normalize r).others]
  exact h

namespace Server

theorem apart_of_objects? {v : Json} {objects : List Object} (h : objects? v = some objects) :
    ∀ o ∈ objects, o.metadata.Apart := by
  cases v with
  | null =>
    obtain rfl : [] = objects := Option.some.inj h
    exact fun o ho => absurd ho List.not_mem_nil
  | array items => exact Object.apart_of_mapM h
  | _ => cases h

theorem apart_of_readItems {v : Json} {objects : List Object} (h : readItems v = some objects) :
    ∀ o ∈ objects, o.metadata.Apart := by
  cases v with
  | object fields =>
    obtain ⟨metadata, -, h⟩ := Option.bind_eq_some_iff.mp h
    -- The metadata of the list are checked, and nothing else depends on them.
    have hItems : ((Refusal.single "items" fields).bind fun given => given.bind objects?) =
        some objects := by
      dsimp only at h
      split at h
      · exact h
      · cases h
      · obtain ⟨-, -, hRest⟩ := Option.bind_eq_some_iff.mp h
        exact hRest
    obtain ⟨given, -, hGiven⟩ := Option.bind_eq_some_iff.mp hItems
    obtain ⟨value, -, hValue⟩ := Option.bind_eq_some_iff.mp hGiven
    exact apart_of_objects? hValue
  | _ => cases h

theorem list_ensures (server : Server) (r : Resource) :
    (server.list r).Ensures fun answer =>
      ∀ objects, answer = .ok objects → ∀ o ∈ objects, o.metadata.Apart := by
  intro past objects hList
  obtain ⟨v, hRead⟩ := server.get_ensures _ _ _ past objects hList
  exact apart_of_readItems hRead

end Server

theorem Listing.apart_of_mem_kept {l : Listing}
    (h : ∀ objects, l.answer = .ok objects → ∀ o ∈ objects, o.metadata.Apart) (filter : Filter) :
    ∀ o ∈ l.kept filter, o.metadata.Apart := by
  intro o hKept
  unfold kept at hKept
  split at hKept
  · rename_i objects hAnswer
    obtain ⟨listed, hListed, rfl⟩ := List.mem_map.mp (List.mem_filter.mp hKept).1
    exact Object.apart_normalize (h objects hAnswer listed hListed) l.resource
  · exact absurd hKept List.not_mem_nil

theorem Inventory.apart_of_mem_collect {c : Cluster} {config : Config}
    {arguments : FetchArguments} {past : List String} {report : Report}
    (h : (collect c config arguments past).1.value = .ok report) :
    ∀ o ∈ report.objects, o.metadata.Apart := by
  rw [(collect_eq c config arguments past).1] at h
  cases hPass : pass? c config arguments past with
  | error e =>
    rw [hPass] at h
    cases h
  | ok pass =>
    rw [hPass] at h
    obtain rfl := Except.ok.inj h
    obtain ⟨kinds, rfl⟩ := pass?_eq_ok c config arguments past hPass
    intro o hObject
    obtain ⟨l, hListing, hKept⟩ := List.mem_flatMap.mp hObject
    obtain ⟨asked, hAnswer⟩ := Listing.exists_of_mem_run hListing
    refine Listing.apart_of_mem_kept (fun objects hObjects => ?_) _ o hKept
    exact c.server.list_ensures l.resource _ objects (hAnswer.symm.trans hObjects)

/-! ## Streams -/

theorem writeObjects_yaml (objects : List Object) : writeObjects .yaml objects =
    String.join (((objects.map Object.toJson).map Yaml.print).map fun d => documentMark ++ d) := by
  simp [writeObjects, Function.comp_def]

theorem unmarked_print_toJson (o : Object) :
    Yaml.Unmarked Yaml.isBreak (Yaml.print o.toJson).toList := by
  obtain ⟨front, hFront⟩ := Object.exists_front o.types
  have hFields : o.toJson = .object (front ++ ("metadata", o.metadata.toJson) :: o.data) :=
    hFront o.metadata o.data
  rw [hFields]
  cases front with
  | nil => exact Yaml.unmarked_print_object _ _
  | cons e front => exact Yaml.unmarked_print_object _ _

/-- The two outputs can be taken apart into the same objects in the same order. A line may end as in
a document of YAML, or with a newline only if each text does; the array is one text for any objects,
and is read back where the reader can hold them. -/
structure Carries (objects : List Object) : Prop where
  documents : Yaml.cutAtMarks Yaml.isBreak (writeObjects .yaml objects) =
    "" :: (objects.map Object.toJson).map Yaml.print
  lines : (∀ o ∈ objects, (Yaml.print o.toJson).toList.getLast? = some '\n') →
    Yaml.cutAtMarks (· == '\n') (writeObjects .yaml objects) =
      "" :: (objects.map Object.toJson).map Yaml.print
  distinct : ∀ others : List Object,
    (others.map Object.toJson).map Yaml.print ≠ (objects.map Object.toJson).map Yaml.print →
      writeObjects .yaml others ≠ writeObjects .yaml objects
  array : ∃ items, writeObjects .json objects = "[" ++ items ++ "]" ++ "\n" ∧
    ((∀ o ∈ objects, Json.Readable (Json.maxDepth - 1) o.toJson) →
      Json.parse? ("[" ++ items ++ "]") = some (.array (objects.map Object.toJson)))

theorem cutAtMarks_writeObjects (objects : List Object) :
    Yaml.cutAtMarks Yaml.isBreak (writeObjects .yaml objects) =
      "" :: (objects.map Object.toJson).map Yaml.print := by
  rw [writeObjects_yaml]
  refine Yaml.cutAtMarks_stream (by decide) (by decide) fun d hd => ?_
  rw [List.map_map] at hd
  obtain ⟨o, -, rfl⟩ := List.mem_map.mp hd
  exact unmarked_print_toJson o

theorem cutAtMarks_writeObjects_newlines {objects : List Object}
    (h : ∀ o ∈ objects, (Yaml.print o.toJson).toList.getLast? = some '\n') :
    Yaml.cutAtMarks (· == '\n') (writeObjects .yaml objects) =
      "" :: (objects.map Object.toJson).map Yaml.print := by
  rw [writeObjects_yaml]
  refine Yaml.cutAtMarks_stream (by decide) (by decide) fun d hd => ?_
  rw [List.map_map] at hd
  obtain ⟨o, ho, rfl⟩ := List.mem_map.mp hd
  refine (unmarked_print_toJson o).coarser (fun c hc => ?_) (by decide) fun c hc => ?_
  · rw [beq_iff_eq.mp hc]
    decide
  · obtain rfl : c = '\n' := Option.some.inj (hc.symm.trans (h o ho))
    rfl

theorem exists_brackets (items : List Json) :
    ∃ text, (Json.array items).pretty "" = "[" ++ text ++ "]" := by
  rw [Json.pretty, Json.enclose]
  split
  · exact ⟨"", rfl⟩
  · refine ⟨"\n  " ++ ("," ++ "\n  ").intercalate (Json.prettyItems "  " items) ++ "\n", ?_⟩
    simp only [String.append_assoc, String.empty_append]
    rfl

theorem carries (objects : List Object) : Carries objects where
  documents := cutAtMarks_writeObjects objects
  lines := cutAtMarks_writeObjects_newlines
  distinct others hDiffers hSame := by
    have hCut := cutAtMarks_writeObjects others
    rw [hSame, cutAtMarks_writeObjects objects] at hCut
    exact hDiffers (List.cons.inj hCut).2.symm
  array := by
    obtain ⟨text, hText⟩ := exists_brackets (objects.map Object.toJson)
    refine ⟨text, by rw [← hText]; rfl, fun h => ?_⟩
    have hItems : Json.Readable (Json.maxDepth - 1 + 1) (.array (objects.map Object.toJson)) :=
      Json.readable_array_iff.mpr (by simpa using h)
    rw [← hText]
    exact Json.parse?_pretty hItems

/-- Both outputs can be taken apart, with the field managers or without them; leaving them out
changes nothing else of an object that has them apart, as every object does that a fetch collects. -/
theorem carries_writeObjects (objects : List Object) :
    Carries objects ∧ Carries (objects.map Object.stripManagedFields) ∧
      (∀ o ∈ objects, o.metadata.Apart → o.Strips o.stripManagedFields) ∧
      ∀ (c : Cluster) (config : Config) (arguments : FetchArguments) (past : List String)
        (report : Report), (Inventory.collect c config arguments past).1.value = .ok report →
          report.objects = objects → ∀ o ∈ objects, o.Strips o.stripManagedFields := by
  refine ⟨carries objects, carries (objects.map Object.stripManagedFields), ?_, ?_⟩
  · exact fun o _ hApart => Object.strips_stripManagedFields hApart
  · rintro c config arguments past report hCollected rfl o hObject
    exact Object.strips_stripManagedFields (Inventory.apart_of_mem_collect hCollected o hObject)

def noted : Object where
  types := some ⟨"v1", "Namespace"⟩
  metadata := {
    managedFields := some (.array [.object [("manager", .string "kubectl")]])
    others := [("name", .string "prod")] }
  data := [("notes", .object [("text", .string "a\n---\nb"), ("size", .int (-3))])]

theorem carries_writeObjects_noted :
    let objects := [noted, noted.stripManagedFields]
    let documents := [
      "apiVersion: v1\nkind: Namespace\nmetadata:\n  managedFields:\n  - manager: kubectl\n" ++
        "  name: prod\nnotes:\n  text: |-\n    a\n    ---\n    b\n  size: -3\n",
      "apiVersion: v1\nkind: Namespace\nmetadata:\n" ++
        "  name: prod\nnotes:\n  text: |-\n    a\n    ---\n    b\n  size: -3\n"]
    (∀ o ∈ objects, o.metadata.Apart) ∧
      (∀ o ∈ objects, Json.Readable (Json.maxDepth - 1) o.toJson) ∧
      noted.Strips noted.stripManagedFields ∧
      Yaml.cutAtMarks (· == '\n') (writeObjects .yaml objects) = "" :: documents ∧
      ∃ items, writeObjects .json objects = "[" ++ items ++ "]" ++ "\n" ∧
        Json.parse? ("[" ++ items ++ "]") = some (.array (objects.map Object.toJson)) := by
  intro objects documents
  have hApart : noted.metadata.Apart := by
    simp [noted, Metadata.Apart]
  have hAllApart : ∀ o ∈ objects, o.metadata.Apart := by
    simp only [objects, List.forall_mem_cons, List.not_mem_nil, false_implies, implies_true,
      and_true]
    exact ⟨hApart, hApart⟩
  have hReadable : Json.Readable (Json.maxDepth - 1) noted.toJson := by
    have hBefore : "managedFields" < "name" := by decide
    have hText (limit : Nat) (t : String) : Json.Readable limit (.string t) := .string t
    have hSize : Json.Readable 124 (.int (-3)) := .int (by decide) (by decide) 124
    have hJson : noted.toJson = .object [
        ("apiVersion", .string "v1"), ("kind", .string "Namespace"),
        ("metadata", .object [("managedFields", .array [.object [("manager", .string "kubectl")]]),
          ("name", .string "prod")]),
        ("notes", .object [("text", .string "a\n---\nb"), ("size", .int (-3))])] := by
      simp only [Object.toJson, noted, Metadata.toJson, Fields.insert, hBefore, if_true,
        List.cons_append, List.nil_append]
    rw [hJson]
    simp only [Json.maxDepth, Json.readable_object_iff, Json.readable_array_iff,
      List.forall_mem_cons, List.not_mem_nil, false_implies, implies_true, hText, hSize,
      and_self]
  have hAllReadable : ∀ o ∈ objects, Json.Readable (Json.maxDepth - 1) o.toJson := by
    simp only [objects, List.forall_mem_cons, List.not_mem_nil, false_implies, implies_true,
      and_true]
    exact ⟨hReadable, (Object.strips_stripManagedFields hApart).readable hReadable⟩
  have hDocuments : (objects.map Object.toJson).map Yaml.print = documents := by
    decide +kernel
  obtain ⟨hCarries, -, hStrips, -⟩ := carries_writeObjects objects
  refine ⟨hAllApart, hAllReadable, hStrips noted List.mem_cons_self hApart, ?_, ?_⟩
  · rw [hCarries.lines, hDocuments]
    decide +kernel
  · obtain ⟨items, hItems, hRead⟩ := hCarries.array
    exact ⟨items, hItems, hRead hAllReadable⟩

end ClusterInventory
