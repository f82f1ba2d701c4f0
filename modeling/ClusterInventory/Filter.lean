/-! # Filters

Allow-lists and deny-lists for kinds and namespaces. An empty allow-list restricts nothing, and a
deny-list wins over an allow-list.
-/

namespace ClusterInventory

structure Filter where
  selectKinds : List String := []
  ignoreKinds : List String := []
  selectNamespaces : List String := []
  ignoreNamespaces : List String := []
  deriving DecidableEq, Repr, Inhabited

namespace Filter

inductive Rejection where
  | ignored
  | notSelected
  deriving DecidableEq, Repr

def checkKind (f : Filter) (kind : String) : Except Rejection Unit :=
  if kind ∈ f.ignoreKinds then .error .ignored
  else if f.selectKinds ≠ [] ∧ kind ∉ f.selectKinds then .error .notSelected
  else .ok ()

def allowsNamespace (f : Filter) (namespaceName : String) : Bool :=
  !f.ignoreNamespaces.contains namespaceName &&
    (f.selectNamespaces.isEmpty || f.selectNamespaces.contains namespaceName)

/-- Appends the entries of `more` that are not there yet, in their order. -/
def extend (list more : List String) : List String :=
  more.foldl (fun acc item => if item ∈ acc then acc else acc ++ [item]) list

def merge (f g : Filter) : Filter where
  selectKinds := extend f.selectKinds g.selectKinds
  ignoreKinds := extend f.ignoreKinds g.ignoreKinds
  selectNamespaces := extend f.selectNamespaces g.selectNamespaces
  ignoreNamespaces := extend f.ignoreNamespaces g.ignoreNamespaces

end Filter

end ClusterInventory
