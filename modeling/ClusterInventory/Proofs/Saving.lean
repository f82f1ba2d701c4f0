import ClusterInventory.Proofs.Configuration
import ClusterInventory.Proofs.Yaml.Composing

/-! # Saving a configuration

The document of a configuration is read back as the same configuration, whatever its texts are. So
what was saved is what is loaded, and it is saved again as it stands there.
-/

namespace ClusterInventory

/-! ## Printing -/

namespace Yaml

open Scanner

def texts (l : List String) : Json := .array (l.map .string)

theorem toList_spaces (n : Nat) : (spaces n).toList = List.replicate n ' ' :=
  String.toList_ofList

theorem toList_items (n : Nat) (l : List String) : (items n (l.map .string)).toList =
    l.flatMap fun s => List.replicate n ' ' ++ itemText n s := by
  induction l with
  | nil => rfl
  | cons s l ih =>
    simp [items, afterDash, ih, toList_spaces, itemText]

theorem toList_afterKey (n : Nat) (l : List String) :
    (afterKey n (texts l)).toList = listText n l := by
  cases l with
  | nil => simp [texts, afterKey, listText]
  | cons s l => simp [texts, afterKey, afterDash, toList_items, toList_spaces, itemText, listText]

structure Simple (key : String) : Prop where
  short : isSimpleKey key = true
  plain : styleOf true key = .plain

theorem toList_entry {e : String × List String} (h : Simple e.1) (n : Nat) :
    (entry n (e.1, texts e.2)).toList = fieldText n e := by
  simp [entry, h.short, keyText, h.plain, toList_afterKey, fieldText]

theorem toList_entries {es : List (String × List String)} (h : ∀ e ∈ es, Simple e.1) (n : Nat) :
    (entries n (es.map fun e => (e.1, texts e.2))).toList =
      es.flatMap fun e => List.replicate n ' ' ++ fieldText n e := by
  induction es with
  | nil => rfl
  | cons e es ih =>
    have hHere := toList_entry (h e List.mem_cons_self) n
    have hLater := ih fun d hd => h d (List.mem_cons_of_mem e hd)
    simp [entries, hHere, hLater, toList_spaces]

namespace Document

def toJson (d : Document) : Json :=
  .object [(d.key, .object (d.inner.map fun e => (e.1, texts e.2))), (d.last.1, texts d.last.2)]

structure Plain (d : Document) : Prop where
  key : Simple d.key
  inner : ∀ e ∈ d.inner, Simple e.1
  last : Simple d.last.1

theorem print_toJson {d : Document} (h : d.Plain) : print d.toJson = String.ofList d.text := by
  have hFirst := toList_entry (h.inner d.first List.mem_cons_self) 2
  have hMore := toList_entries (fun e he => h.inner e (List.mem_cons_of_mem d.first he)) 2
  have hLast := toList_entry h.last 0
  have hOuter (v : Json) : (entry 0 (d.key, v)).toList =
      d.key.toList ++ ':' :: (afterKey 0 v).toList := by
    simp [entry, h.key.short, keyText, h.key.plain]
  rw [← String.toList_inj, String.toList_ofList]
  simp only [toJson, inner, List.map_cons, print, entries, String.toList_append, hOuter, afterKey,
    hFirst, hMore, hLast, toList_spaces]
  simp [text]

end Document

/-! ## Reading -/

namespace Node

theorem texts?_listNode (l : List String) : (listNode l).texts? = some l := by
  have hTexts : (l.map textNode).mapM text? = some l := by
    induction l with
    | nil => rfl
    | cons s l ih => simp [List.mapM_cons, ih, textNode, text?]
  exact hTexts

theorem entries?_fields (es : List (String × List String)) :
    (Node.mapping (es.map fieldNode)).entries? = some (es.map fun e => (e.1, listNode e.2)) := by
  rw [entries?]
  induction es with
  | nil => rfl
  | cons e es ih =>
    rw [List.map_cons, List.mapM_cons, ih]
    rfl

end Node

end Yaml

namespace Filter

def lists (f : Filter) : List (String × List String) :=
  [("select_kinds", f.selectKinds), ("ignore_kinds", f.ignoreKinds),
    ("select_namespaces", f.selectNamespaces), ("ignore_namespaces", f.ignoreNamespaces)]

theorem ofNode?_lists (f : Filter) : ofNode? (.mapping (f.lists.map Yaml.fieldNode)) = some f := by
  rw [ofNode?, Yaml.Node.entries?_fields]
  simp [lists, ofEntries?, Yaml.Node.entry?, Yaml.Node.texts?_listNode]

end Filter

namespace Config

def document (c : Config) : Yaml.Document :=
  ⟨"filters", ("select_kinds", c.filters.selectKinds),
    [("ignore_kinds", c.filters.ignoreKinds), ("select_namespaces", c.filters.selectNamespaces),
      ("ignore_namespaces", c.filters.ignoreNamespaces)], ("kinds", c.kinds)⟩

def keys : List String :=
  ["filters", "select_kinds", "ignore_kinds", "select_namespaces", "ignore_namespaces", "kinds"]

theorem keyed_of_mem_keys {k : String} (h : k ∈ keys) : Yaml.Key k.toList := by
  have hKeys : (keys.all fun k => !k.toList.isEmpty && k.toList.all Yaml.isLetter &&
      decide (k.toList.length ≤ 1024)) = true := by
    decide
  have hKey := List.all_eq_true.mp hKeys k h
  simp only [Bool.and_eq_true, Bool.not_eq_true', List.isEmpty_eq_false_iff, List.all_eq_true,
    decide_eq_true_eq] at hKey
  exact ⟨hKey.1.1, hKey.1.2, hKey.2⟩

theorem simple_of_mem_keys {k : String} (h : k ∈ keys) : Yaml.Simple k := by
  have hKeys : ∀ k ∈ keys, Yaml.isSimpleKey k = true ∧ Yaml.styleOf true k = .plain := by decide
  obtain ⟨hShort, hPlain⟩ := hKeys k h
  exact ⟨hShort, hPlain⟩

theorem mem_keys_of_mem_inner {c : Config} {e : String × List String}
    (h : e ∈ c.document.inner) : e.1 ∈ keys := by
  simp only [document, Yaml.Document.inner, List.mem_cons, List.not_mem_nil, or_false] at h
  rcases h with rfl | rfl | rfl | rfl <;> simp [keys]

theorem keyed_document (c : Config) : c.document.Keyed where
  key := keyed_of_mem_keys (by simp [document, keys])
  inner _ he := keyed_of_mem_keys (mem_keys_of_mem_inner he)
  last := keyed_of_mem_keys (by simp [document, keys])

theorem plain_document (c : Config) : c.document.Plain where
  key := simple_of_mem_keys (by simp [document, keys])
  inner _ he := simple_of_mem_keys (mem_keys_of_mem_inner he)
  last := simple_of_mem_keys (by simp [document, keys])

theorem toYaml_eq (c : Config) : c.toYaml = String.ofList c.document.text := by
  have hJson : c.document.toJson =
      .object [("filters", c.filters.toJson), ("kinds", .array (c.kinds.map .string))] :=
    rfl
  rw [toYaml, ← hJson, Yaml.Document.print_toJson (plain_document c)]

/-- Every configuration is read back from its own document. -/
theorem ofYaml?_toYaml (c : Config) : ofYaml? c.toYaml = some c := by
  have hNode : Yaml.Node.ofText? c.toYaml = some c.document.node := by
    rw [toYaml_eq]
    exact Yaml.Document.ofText?_text (keyed_document c)
  have hEntries : c.document.node.entries? =
      some [("filters", .mapping (c.filters.lists.map Yaml.fieldNode)),
        ("kinds", Yaml.listNode c.kinds)] :=
    rfl
  rw [ofYaml?, hNode]
  simp only [Option.bind_eq_bind, Option.bind_some, hEntries]
  simp [Yaml.Node.entry?, Filter.ofNode?_lists, Yaml.Node.texts?_listNode]

end Config

/-! ## Saving -/

namespace FileSystem

/-- Where all directories of a path are there, none is made, and that stays so. -/
theorem makeFrom_of_directories {fs fs' : FileSystem}
    (hMore : ∀ place, fs.find? place = some .directory → fs'.find? place = some .directory)
    {made : Bool} {here : Place} {path : Path} (h : fs.makeFrom made here path = (.ok (), fs)) :
    fs'.makeFrom made here path = (.ok (), fs') := by
  induction path generalizing here with
  | nil => rfl
  | cons name rest ih =>
    rw [makeFrom] at h ⊢
    split at h
    · rename_i hPlace
      rw [hMore _ hPlace]
      exact ih h
    · cases h
    · rename_i hNone
      -- A directory that had to be made would be there.
      have hMade :
          (fs.put (here.next name) .directory).find? (here.next name) = some .directory := by
        rw [find?_put (by rw [hNone]; simp), if_pos rfl]
      have hThere := (grows_makeFrom h).directory _ hMade
      rw [hNone] at hThere
      cases hThere

/-- What stands at a place is put there again. -/
theorem put_put (fs : FileSystem) (place : Place) (entry : Entry) :
    (fs.put place entry).put place entry = fs.put place entry := by
  simp [put]

end FileSystem

namespace Config

structure Saved (c : Config) (fs : FileSystem) (path : String) (fs' : FileSystem) : Prop where
  loads : load fs' path = .ok c
  place : ∃ place, fs'.locate (Path.ofText path) = .ok place ∧
    fs'.find? place = some (.file (.text c.toYaml)) ∧
    (∀ other content, other ≠ place →
      (fs'.find? other = some (.file content) ↔ fs.find? other = some (.file content))) ∧
    ∀ other content, fs'.locate (Path.ofText other) ≠ .ok place →
      fs.entry (Path.ofText other) = .ok (.file content) →
        fs'.entry (Path.ofText other) = .ok (.file content)
  again : ∀ loaded, load fs' path = .ok loaded → loaded.save fs' path = (.ok (), fs')

theorem save_again {c : Config} {fs fs' : FileSystem} {path : String}
    (h : c.save fs path = (.ok (), fs')) : c.save fs' path = (.ok (), fs') := by
  obtain ⟨made, hMade, hWrite⟩ := (save_eq_ok_iff c fs fs' path).mp h
  obtain ⟨place, hPlace, hFree, rfl⟩ := (FileSystem.write_eq_ok_iff made fs' _ _).mp hWrite
  have hMore := fun there => @FileSystem.find?_put_of_directory made place there hFree
    (.file (.text c.toYaml))
  have hAgain : made.makeFrom false [] (Path.ofText path).directory = (.ok (), made) := by
    obtain ⟨result, hAgain, hResult⟩ := FileSystem.makeFrom_makeFrom hMade false
    rw [hAgain, hResult.mpr rfl]
  refine (save_eq_ok_iff c _ _ path).mpr ⟨_, FileSystem.makeFrom_of_directories hMore hAgain, ?_⟩
  refine (FileSystem.write_eq_ok_iff _ _ _ _).mpr ?_
  refine ⟨place, FileSystem.locate_put hFree _ hPlace, ?_, (FileSystem.put_put made place _).symm⟩
  rw [FileSystem.find?_put hFree, if_pos rfl]
  simp

theorem saved_of_save {c : Config} {fs fs' : FileSystem} {path : String}
    (h : c.save fs path = (.ok (), fs')) : c.Saved fs path fs' := by
  have hLoad := load_of_save h (ofYaml?_toYaml c)
  obtain ⟨made, hMade, hWrite⟩ := (save_eq_ok_iff c fs fs' path).mp h
  obtain ⟨place, hPlace, hFree, hPut⟩ := (FileSystem.write_eq_ok_iff made fs' _ _).mp hWrite
  have hGrows := FileSystem.grows_makeDirectories hMade
  have hFiles : ∀ other content, other ≠ place →
      (fs'.find? other = some (.file content) ↔ fs.find? other = some (.file content)) := by
    intro other content hOther
    rw [hPut, FileSystem.find?_put hFree, if_neg hOther]
    exact hGrows.file other content
  refine ⟨hLoad, ⟨place, ?_, ?_, hFiles, ?_⟩, ?_⟩
  · rw [hPut]
    exact FileSystem.locate_put hFree _ hPlace
  · rw [hPut, FileSystem.find?_put hFree, if_pos rfl]
  · -- A path to another file still leads there.
    intro other content hElsewhere hEntry
    rw [FileSystem.entry_eq_ok_iff] at hEntry ⊢
    obtain ⟨there, hThere, hFile⟩ := hEntry
    have hStill : fs'.locate (Path.ofText other) = .ok there := by
      rw [hPut]
      exact FileSystem.locate_put hFree _ (FileSystem.locate_of_directories hGrows.directory hThere)
    refine ⟨there, hStill, (hFiles there content ?_).mpr hFile⟩
    rintro rfl
    exact hElsewhere hStill
  · intro loaded hLoaded
    obtain rfl : c = loaded := Except.ok.inj (hLoad.symm.trans hLoaded)
    exact save_again h

/-- Texts that would be something else without quotes. -/
def tricky : Config := ⟨⟨["", "null"], [], ["1.0"], []⟩, ["a: b", "it's", " x\n y\n\n"]⟩

def malformed : FileSystem :=
  ⟨[(["config.yaml"], .file (.text "filters: [\n# much longer than what is saved\n"))]⟩

theorem saved_of_save_tricky :
    tricky.save malformed "config.yaml" =
        (.ok (), ⟨[(["config.yaml"], .file (.text tricky.toYaml))]⟩) ∧
      tricky.Saved malformed "config.yaml" ⟨[(["config.yaml"], .file (.text tricky.toYaml))]⟩ :=
  ⟨rfl, saved_of_save rfl⟩

end Config

end ClusterInventory
