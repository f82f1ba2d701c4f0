import ClusterInventory.Fetch
import ClusterInventory.Version

/-! # Discovery

A cluster is surveyed group by group. What the survey finds, and the groups that failed to answer,
make up a catalog, which maps kinds to resources. A group that fails affects only its own kinds.
-/

namespace ClusterInventory

/-! ## Documents -/

namespace Document

def entries : Json → Option (List (String × Json))
  | .object fields => some fields
  | _ => none

/-- What a document says about its own type must be right; it may say nothing. -/
def declares (kind : String) (fields : List (String × Json)) : Bool :=
  fields.all fun (key, v) =>
    match v with
    | .string s => (key != "apiVersion" || s == coreVersion) && (key != "kind" || s == kind)
    | _ => key != "apiVersion" && key != "kind"

def read (kind : String) (shape : List (String × Shape × Absence)) (v : Json) :
    Option (Fields Json) := do
  let fields ← entries v
  if declares kind fields then entries (← (Shape.record shape).conform? v) else none

def text (key : String) (fields : Fields Json) : String :=
  match fields.lookup key with
  | some (.string s) => s
  | _ => ""

def text? (key : String) (fields : Fields Json) : Option String :=
  match fields.lookup key with
  | some (.string s) => some s
  | _ => none

def flag (key : String) (fields : Fields Json) : Bool :=
  match fields.lookup key with
  | some (.bool b) => b
  | _ => false

def items (key : String) (fields : Fields Json) : List Json :=
  match fields.lookup key with
  | some (.array items) => items
  | _ => []

def records (key : String) (fields : Fields Json) : List (Fields Json) :=
  (items key fields).filterMap entries

def texts (key : String) (fields : Fields Json) : List String :=
  (items key fields).filterMap fun v => match v with
    | .string s => some s
    | _ => none

def addresses : String × Shape × Absence :=
  Shape.field "serverAddressByClientCIDRs"
    (.list (.record [Shape.text "clientCIDR", Shape.text "serverAddress"]))

end Document

structure GroupVersion where
  groupVersion : String
  version : String
  deriving DecidableEq, Repr

/-- A group as the list of groups announces it. -/
structure GroupEntry where
  name : String
  preferred : Option GroupVersion
  versions : List GroupVersion
  deriving DecidableEq, Repr

structure ResourceEntry where
  name : String
  kind : String
  group : Option String
  version : Option String
  namespaced : Bool
  verbs : List String
  deriving DecidableEq, Repr

structure ResourceList where
  groupVersion : String
  resources : List ResourceEntry
  deriving DecidableEq, Repr

structure ServerVersion where
  major : String
  minor : String
  deriving DecidableEq, Repr

namespace GroupVersion

def shape : Shape := .record [Shape.text "groupVersion", Shape.text "version"]

def ofFields (f : Fields Json) : GroupVersion :=
  ⟨Document.text "groupVersion" f, Document.text "version" f⟩

end GroupVersion

namespace GroupEntry

def fieldShapes : List (String × Shape × Absence) := [
  Shape.text "name", Shape.field "preferredVersion" GroupVersion.shape, Document.addresses,
  Shape.field "versions" (.list GroupVersion.shape)]

def ofJson? (v : Json) : Option GroupEntry := do
  let f ← Document.read "APIGroup" fieldShapes v
  return {
    name := Document.text "name" f
    preferred := ((f.lookup "preferredVersion").bind Document.entries).map GroupVersion.ofFields
    versions := (Document.records "versions" f).map GroupVersion.ofFields }

/-- Every entry of a name is checked; the last one counts. -/
def listOfJson? (v : Json) : Option (List GroupEntry) := do
  let fields ← Document.entries v
  if ¬Document.declares "APIGroupList" fields then none
  else
    let step (_ : List GroupEntry) (e : String × Json) : Option (List GroupEntry) :=
      match e.2 with
      | .null => some []
      | .array items => items.mapM ofJson?
      | _ => none
    (fields.filter (·.1 == "groups")).foldlM step []

end GroupEntry

namespace ResourceEntry

def shape : Shape := .record [
  Shape.field "categories" (.list .string), Shape.field "group" .string, Shape.text "kind",
  Shape.text "name", Shape.field "namespaced" .bool, Shape.field "shortNames" (.list .string),
  Shape.text "singularName", Shape.field "storageVersionHash" .string,
  Shape.field "verbs" (.list .string), Shape.field "version" .string]

def ofFields (f : Fields Json) : ResourceEntry where
  name := Document.text "name" f
  kind := Document.text "kind" f
  group := Document.text? "group" f
  version := Document.text? "version" f
  namespaced := Document.flag "namespaced" f
  verbs := Document.texts "verbs" f

/-- A name with a slash belongs to a subresource. -/
def isSubresource (e : ResourceEntry) : Bool := e.name.toList.contains '/'

end ResourceEntry

def ResourceList.ofJson? (v : Json) : Option ResourceList := do
  let f ← Document.read "APIResourceList"
    [Shape.text "groupVersion", Shape.field "resources" (.list ResourceEntry.shape)] v
  return ⟨Document.text "groupVersion" f,
    (Document.records "resources" f).map ResourceEntry.ofFields⟩

def readCoreVersions (v : Json) : Option (List String) := do
  let f ← Document.read "APIVersions"
    [Document.addresses, Shape.field "versions" (.list .string)] v
  return Document.texts "versions" f

namespace ServerVersion

def fieldNames : List String := [
  "buildDate", "compiler", "emulationMajor", "emulationMinor", "gitCommit", "gitTreeState",
  "gitVersion", "goVersion", "major", "minCompatibilityMajor", "minCompatibilityMinor", "minor",
  "platform"]

def ofJson? (v : Json) : Option ServerVersion := do
  let f ← Document.entries (← (Shape.record (fieldNames.map Shape.text)).conform? v)
  return ⟨Document.text "major" f, Document.text "minor" f⟩

/-- Plus signs around the minor part are left out. -/
def format (v : ServerVersion) : String :=
  let trimmed := v.minor.toList.dropWhile (· = '+')
  v.major ++ "." ++ String.ofList (trimmed.reverse.dropWhile (· = '+')).reverse

end ServerVersion

/-! ## Resources of a list -/

namespace ResourceList

/-- The group and the version of the list: what stands before and after the first slash. -/
def splitGroupVersion (text : String) : String × String :=
  let cs := text.toList
  match cs.dropWhile (· ≠ '/') with
  | [] => ("", text)
  | _ :: version => (String.ofList (cs.takeWhile (· ≠ '/')), String.ofList version)

/-- An entry may name a group and a version of its own; the API version is that of the list. -/
def resource (list : ResourceList) (e : ResourceEntry) (plural : String) : Resource :=
  let (group, version) := splitGroupVersion list.groupVersion
  { group := e.group.getD group
    version := e.version.getD version
    apiVersion := Resource.joinApiVersion group version
    kind := e.kind
    plural }

/-- What follows the name of a resource and a slash in the name of one of its subresources. -/
def subresourceName? (owner name : String) : Option String :=
  let start := owner.toList ++ ['/']
  if start.isPrefixOf name.toList then some (String.ofList (name.toList.drop start.length))
  else none

/-- The mapping of an entry. Scope and verbs are those of the first entry of its name; the depth
of the subresources is bounded by the number of entries. -/
def mapping (list : ResourceList) (e : ResourceEntry) (plural : String) : Nat → Mapping
  | 0 => ⟨list.resource e plural, e.namespaced, e.verbs, []⟩
  | fuel + 1 =>
      let first := (list.resources.find? (·.name == e.name)).getD e
      { resource := list.resource e plural
        namespaced := first.namespaced
        verbs := first.verbs
        subresources := list.resources.filterMap fun sub =>
          (subresourceName? e.name sub.name).map fun plural => list.mapping sub plural fuel }

def mappings (list : ResourceList) : List Mapping :=
  (list.resources.filter (!·.isSubresource)).map fun e =>
    list.mapping e e.name (list.resources.length + 1)

end ResourceList

/-! ## Groups -/

structure VersionData where
  version : String
  mappings : List Mapping
  deriving Inhabited

structure ApiGroup where
  versions : List VersionData
  preferred : Option String
  deriving Inhabited

namespace ApiGroup

/-- A group with its versions in order of rank. -/
def ofVersions (versions : List VersionData) (preferred : Option String) : ApiGroup where
  versions := versions.mergeSort fun a b =>
    (Version.ofText a.version).before (Version.ofText b.version)
  preferred := preferred

/-- Of two equal versions the first one counts. -/
def resourcesOf (g : ApiGroup) (version : String) : List Mapping :=
  ((g.versions.find? (·.version == version)).map VersionData.mappings).getD []

def preferredOrLatest (g : ApiGroup) : String :=
  g.preferred.getD ((g.versions.head?.map VersionData.version).getD "")

def find? (g : ApiGroup) (version kind : String) : Option Mapping :=
  let version := if version = "" then g.preferredOrLatest else version
  (g.resourcesOf version).find? (·.resource.kind == kind)

def mappings (g : ApiGroup) : List Mapping :=
  g.versions.flatMap fun v => g.resourcesOf v.version

end ApiGroup

/-- The kinds of mappings that can be listed, each once, in order of first occurrence. -/
def listableKinds (mappings : List Mapping) : List Kind :=
  mappings.foldl (fun kinds m =>
    if m.isListable ∧ m.resource.toKind ∉ kinds then kinds ++ [m.resource.toKind] else kinds) []

/-! ## Catalogs -/

/-- The groups that were discovered and the errors of those that were not. -/
structure Catalog where
  groups : Fields ApiGroup := []
  failed : Fields String := []
  deriving Inhabited

namespace Catalog

def groupLabel (name : String) : String := if name = "" then "core" else name

def add (c : Catalog) (finding : String × Except RequestError ApiGroup) : Catalog :=
  match finding with
  | (name, .ok g) => { c with groups := Fields.insert name g c.groups }
  | (name, .error e) => { c with failed := Fields.insert name e.message c.failed }

def ofFindings (findings : List (String × Except RequestError ApiGroup)) : Catalog :=
  findings.foldl add {}

def mapper (c : Catalog) : Mapper := fun kind =>
  match Fields.get? kind.group c.failed with
  | some error =>
      .error (.discoveryUnavailable ("API group '" ++ groupLabel kind.group ++ "': " ++ error))
  | none =>
      match (Fields.get? kind.group c.groups).bind fun g => g.find? kind.version kind.name with
      | some m => .ok m
      | none => .error (.notFound kind.canonical)

def mappings (c : Catalog) : List Mapping := c.groups.flatMap fun e => e.2.mappings

def listableKinds (c : Catalog) : List Kind := ClusterInventory.listableKinds c.mappings

end Catalog

/-! ## Surveys -/

namespace Server

def groupList (server : Server) : Exchange (Except RequestError (List GroupEntry)) :=
  server.get .badPath GroupEntry.listOfJson? "/apis"

/-- Reads the resource lists of a group, one version after another; the first error ends it. -/
def readVersions (server : Server) :
    List (String × String) → Exchange (Except RequestError (List VersionData))
  | [] => pure (.ok [])
  | (version, path) :: rest => do
      match ← server.get .badPath ResourceList.ofJson? path with
      | .error e => return .error e
      | .ok list =>
          match ← server.readVersions rest with
          | .error e => return .error e
          | .ok data => return .ok (⟨version, list.mappings⟩ :: data)

def discoverCore (server : Server) : Exchange (Except RequestError ApiGroup) := do
  match ← server.get .badPath readCoreVersions "/api" with
  | .error e => return .error e
  | .ok [] => return .error (.emptyGroup "")
  | .ok versions =>
      let data ← server.readVersions (versions.map fun v => (v, "/api/" ++ v))
      return data.map fun d => ApiGroup.ofVersions d (some coreVersion)

def discoverNamed (server : Server) (name : String) : Exchange (Except RequestError ApiGroup) := do
  match ← server.groupList with
  | .error e => return .error e
  | .ok groups =>
      match groups.find? (·.name == name) with
      | none => return .error (.missingGroup name)
      | some g =>
          if g.versions.isEmpty then return .error (.emptyGroup name)
          else
            let data ← server.readVersions (g.versions.map fun v =>
              (v.version, "/apis/" ++ v.groupVersion))
            return data.map fun d => ApiGroup.ofVersions d (g.preferred.map GroupVersion.version)

def discoverGroup (server : Server) (name : String) : Exchange (Except RequestError ApiGroup) :=
  if name = "" then server.discoverCore else server.discoverNamed name

def discoverGroups (server : Server) :
    List String → Exchange (List (String × Except RequestError ApiGroup))
  | [] => pure []
  | name :: rest => do
      let finding ← server.discoverGroup name
      return (name, finding) :: (← server.discoverGroups rest)

/-- Discovers the core group and every group of the list. It fails only where the list of groups
cannot be had. -/
def survey (server : Server) :
    Exchange (Except RequestError (List (String × Except RequestError ApiGroup))) := do
  match ← server.groupList with
  | .error e => return .error e
  | .ok groups => return .ok (← server.discoverGroups ("" :: groups.map GroupEntry.name))

end Server

def findingRecord : String × Except RequestError ApiGroup → Record
  | (name, .ok _) =>
      Component.discovery.record .debug
        ("Discovered API group '" ++ Catalog.groupLabel name ++ "'")
  | (name, .error e) =>
      Component.discovery.record .warn
        ("Discovery error for API group '" ++ Catalog.groupLabel name ++ "': " ++ e.message)

end ClusterInventory
