import ClusterInventory.Double

/-! # JSON values

Fields of an object keep their order. A number is an integer or a binary64 number.
-/

namespace ClusterInventory

inductive Json where
  | null
  | bool (b : Bool)
  | int (n : Int)
  | double (d : Double)
  | string (s : String)
  | array (items : List Json)
  | object (fields : List (String × Json))
  deriving Inhabited, Repr

/-- A table that keeps its keys in ascending order, each once. -/
abbrev Fields (α : Type) := List (String × α)

namespace Fields

variable {α β : Type}

/-- Puts a value under a key; a value that was there is replaced. -/
def insert (key : String) (value : α) : Fields α → Fields α
  | [] => [(key, value)]
  | (k, v) :: r =>
      if key < k then (key, value) :: (k, v) :: r
      else if key = k then (key, value) :: r
      else (k, v) :: insert key value r

/-- Sorts entries by key; of two entries with one key the later wins. -/
def ofList (entries : List (String × α)) : Fields α :=
  entries.foldl (fun acc e => insert e.1 e.2 acc) []

def get? (key : String) (fields : Fields α) : Option α := fields.lookup key

def erase (key : String) (fields : Fields α) : Fields α := fields.filter fun e => e.1 != key

end Fields

namespace Json

def get? (key : String) : Json → Option Json
  | object fields => fields.lookup key
  | _ => none

/-- Every object with its keys sorted, each once. -/
def canonical : Json → Json
  | array items => array (canonicalItems items)
  | object fields => object (Fields.ofList (canonicalFields fields))
  | v => v
where
  canonicalItems : List Json → List Json
    | [] => []
    | v :: r => canonical v :: canonicalItems r
  canonicalFields : List (String × Json) → List (String × Json)
    | [] => []
    | (k, v) :: r => (k, canonical v) :: canonicalFields r

end Json

end ClusterInventory
