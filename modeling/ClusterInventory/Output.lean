import ClusterInventory.Json.Printer
import ClusterInventory.Object
import ClusterInventory.Yaml.Printer

/-! # Output of objects

Objects are written as a stream of YAML documents or as one JSON array.
-/

namespace ClusterInventory

inductive OutputFormat where
  | yaml
  | json
  deriving DecidableEq, Repr, Inhabited

def documentMark : String := "---\n"

def writeObjects (format : OutputFormat) (objects : List Object) : String :=
  match format with
  | .yaml => String.join (objects.map fun o => documentMark ++ Yaml.print o.toJson)
  | .json => (Json.array (objects.map Object.toJson)).pretty "" ++ "\n"

end ClusterInventory
