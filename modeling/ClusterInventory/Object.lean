import ClusterInventory.Json.Shape
import ClusterInventory.Resource

/-! # Objects

An object of a cluster has a type, metadata of a fixed shape, and any other fields. The type is
known only where the API version and the kind are both given.
-/

namespace ClusterInventory

structure TypeMeta where
  apiVersion : String
  kind : String
  deriving DecidableEq, Repr, Inhabited

/-- The namespace and the field managers stand apart from the other fields of the metadata. -/
structure Metadata where
  namespaceName : Option String := none
  managedFields : Option Json := none
  others : Fields Json := []
  deriving Inhabited, Repr

structure Object where
  types : Option TypeMeta
  metadata : Metadata
  data : Fields Json
  deriving Inhabited, Repr

namespace Metadata

def ownerReference : Shape := .record [
  Shape.text "apiVersion", Shape.field "blockOwnerDeletion" .bool, Shape.field "controller" .bool,
  Shape.text "kind", Shape.text "name", Shape.text "uid"]

def managedEntry : Shape := .record [
  Shape.field "apiVersion" .string, Shape.field "fieldsType" .string,
  Shape.field "fieldsV1" .any, Shape.field "manager" .string, Shape.field "operation" .string,
  Shape.field "subresource" .string, Shape.field "time" .time]

def shape : Shape := .record [
  Shape.field "annotations" (.table .string), Shape.field "creationTimestamp" .time,
  Shape.field "deletionGracePeriodSeconds" .integer, Shape.field "deletionTimestamp" .time,
  Shape.field "finalizers" (.list .string), Shape.field "generateName" .string,
  Shape.field "generation" .integer, Shape.field "labels" (.table .string),
  Shape.field "managedFields" (.list managedEntry), Shape.field "name" .string,
  Shape.field "namespace" .string, Shape.field "ownerReferences" (.list ownerReference),
  Shape.field "resourceVersion" .string, Shape.field "selfLink" .string, Shape.field "uid" .string]

def ofFields (fields : Fields Json) : Metadata where
  namespaceName :=
    match Fields.get? "namespace" fields with
    | some (.string s) => some s
    | _ => none
  managedFields := Fields.get? "managedFields" fields
  others := Fields.erase "namespace" (Fields.erase "managedFields" fields)

def ofJson? (v : Json) : Option Metadata :=
  match Shape.conform? shape v with
  | some (.object fields) => some (ofFields fields)
  | _ => none

def toJson (m : Metadata) : Json :=
  let fields := match m.managedFields with
    | some v => Fields.insert "managedFields" v m.others
    | none => m.others
  .object (match m.namespaceName with
    | some s => Fields.insert "namespace" (.string s) fields
    | none => fields)

end Metadata

namespace Object

/-- What the search for the type leaves: the texts found so far, and whether it has failed. -/
structure TypeSearch where
  apiVersion : Option String := none
  kind : Option String := none
  failed : Bool := false

/-- One step of the search; the answer also says whether the field is used up. A field of a wrong
type and a field given twice are used up and end the search. -/
def TypeSearch.step (s : TypeSearch) (key : String) (value : Json) : TypeSearch × Bool :=
  if s.failed then (s, false)
  else if key = "apiVersion" then
    match s.apiVersion, value with
    | none, .string v => ({ s with apiVersion := some v }, true)
    | _, _ => ({ s with failed := true }, true)
  else if key = "kind" then
    match s.kind, value with
    | none, .string v => ({ s with kind := some v }, true)
    | _, _ => ({ s with failed := true }, true)
  else (s, false)

/-- Splits the fields of a document into the type and the fields that are left. -/
def splitTypes (s : TypeSearch) : List (String × Json) → TypeSearch × List (String × Json)
  | [] => (s, [])
  | (k, v) :: r =>
      let (s, used) := s.step k v
      let (s, rest) := splitTypes s r
      (s, if used then rest else (k, v) :: rest)

def TypeSearch.result (s : TypeSearch) : Option TypeMeta :=
  if s.failed then none
  else match s.apiVersion, s.kind with
    | some a, some k => some ⟨a, k⟩
    | _, _ => none

def ofJson? : Json → Option Object
  | .object fields =>
      let isMetadata (e : String × Json) : Bool := e.1 == "metadata"
      let (search, rest) := splitTypes {} (fields.filter fun e => !isMetadata e)
      let data := Fields.ofList (rest.map fun (k, v) => (k, v.canonical))
      match fields.filter isMetadata with
      | [] => some ⟨search.result, {}, data⟩
      | [(_, v)] => (Metadata.ofJson? v).map fun m => ⟨search.result, m, data⟩
      | _ => none
  | _ => none

/-- The fields in the order in which they are written. -/
def toJson (o : Object) : Json :=
  let types := match o.types with
    | some t => [("apiVersion", .string t.apiVersion), ("kind", .string t.kind)]
    | none => []
  .object (types ++ ("metadata", o.metadata.toJson) :: o.data)

def stripManagedFields (o : Object) : Object :=
  { o with metadata := { o.metadata with managedFields := none } }

def defaultNamespace : String := "default"

/-- The namespace as filters see it. -/
def namespaceName (o : Object) : String := o.metadata.namespaceName.getD ""

/-- A listed object without a namespace is in the default one, and one without a type has that of
its resource. -/
def normalize (r : Resource) (o : Object) : Object where
  types := o.types.or (some ⟨r.apiVersion, r.kind⟩)
  metadata :=
    if o.namespaceName = "" then { o.metadata with namespaceName := some defaultNamespace }
    else o.metadata
  data := o.data

end Object

end ClusterInventory
