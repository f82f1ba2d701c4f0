import ClusterInventory.Kind

/-! # Resources

A resource is a collection of objects that the cluster serves; a mapping adds what the cluster
says about it: its scope, its verbs and its subresources.
-/

namespace ClusterInventory

structure Resource where
  group : String
  version : String
  apiVersion : String
  kind : String
  plural : String
  deriving DecidableEq, Repr, Inhabited

structure Mapping where
  resource : Resource
  namespaced : Bool
  verbs : List String
  subresources : List Mapping
  deriving Inhabited

namespace Resource

/-- The API version of a group and a version: the core group is left out. -/
def joinApiVersion (group version : String) : String :=
  if group = "" then version else group ++ "/" ++ version

def toKind (r : Resource) : Kind := ⟨r.group, r.version, r.kind⟩

def occursIn (part : List Char) : List Char → Bool
  | [] => part.isEmpty
  | c :: r => part.isPrefixOf (c :: r) || occursIn part r

/-- Lists, reviews and bindings are endpoints without a collection of objects behind them. -/
def isEnumerable (plural : String) : Bool :=
  !(occursIn "lists".toList plural.toList || occursIn "reviews".toList plural.toList ||
    plural.toList.map Char.toLower == "bindings".toList)

end Resource

def Mapping.supports (m : Mapping) (verb : String) : Bool := m.verbs.contains verb

def Mapping.isListable (m : Mapping) : Bool := m.supports "list"

end ClusterInventory
