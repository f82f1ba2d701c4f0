import ClusterInventory.Json.Basic
import ClusterInventory.Timestamp

/-! # Shapes of values

A shape says which values a place of a document may hold. A value that conforms is brought into
its normal form: unknown fields of a record are dropped, fields that are null count as absent,
keys are in ascending order, and timestamps are in UTC.
-/

namespace ClusterInventory

inductive Absence where
  | allowed
  | refused
  | standsFor (value : Json)

inductive Shape where
  | any
  | string
  /-- One of the given texts. -/
  | word (words : List String)
  | bool
  /-- An integer of 64 bits with a sign. -/
  | integer
  | time
  | list (item : Shape)
  | table (value : Shape)
  /-- Each field has its shape and a meaning where it is absent. -/
  | record (fields : List (String × Shape × Absence))
  deriving Inhabited

namespace Shape

def fitsInteger (n : Int) : Bool := -Int.pow 2 63 ≤ n && n < Int.pow 2 63

def field (name : String) (shape : Shape) : String × Shape × Absence := (name, shape, .allowed)

def required (name : String) (shape : Shape) : String × Shape × Absence := (name, shape, .refused)

/-- A text that is empty where it is absent. -/
def text (name : String) : String × Shape × Absence := (name, string, .standsFor (.string ""))

/-- What is in a record before any field is read. -/
def defaults (fields : List (String × Shape × Absence)) : Fields Json :=
  Fields.ofList (fields.filterMap fun (name, _, absence) => match absence with
    | .standsFor v => some (name, v)
    | _ => none)

def isComplete (fields : List (String × Shape × Absence)) (found : Fields Json) : Bool :=
  fields.all fun (name, _, absence) => match absence with
    | .refused => (found.lookup name).isSome
    | _ => true

mutual

/-- The normal form of a value of the given shape. -/
def conform? (shape : Shape) : Json → Option Json
  | .array items =>
      match shape with
      | any => some (Json.canonical (.array items))
      | list item => (conformItems item items).map .array
      | _ => none
  | .object entries =>
      match shape with
      | any => some (Json.canonical (.object entries))
      | table value => (conformTable value [] entries).map .object
      | record fields => (conformRecord fields (defaults fields) entries).map .object
      | _ => none
  | .string s =>
      match shape with
      | any => some (.string s)
      | string => some (.string s)
      | word words => if s ∈ words then some (.string s) else none
      | time => (Timestamp.parse? s).map fun t => .string t.write
      | _ => none
  | .bool b =>
      match shape with
      | any => some (.bool b)
      | bool => some (.bool b)
      | _ => none
  | .int n =>
      match shape with
      | any => some (.int n)
      | integer => if fitsInteger n then some (.int n) else none
      | _ => none
  | v =>
      match shape with
      | any => some v
      | _ => none

def conformItems (item : Shape) : List Json → Option (List Json)
  | [] => some []
  | v :: r => do return (← conform? item v) :: (← conformItems item r)

def conformTable (value : Shape) (acc : Fields Json) :
    List (String × Json) → Option (Fields Json)
  | [] => some acc
  | (k, v) :: r => do conformTable value (Fields.insert k (← conform? value v) acc) r

/-- The last entry of a name counts; a null entry brings the default back. -/
def conformRecord (fields : List (String × Shape × Absence)) (acc : Fields Json) :
    List (String × Json) → Option (Fields Json)
  | [] => if isComplete fields acc then some acc else none
  | (k, v) :: r =>
      match fields.lookup k with
      | none => conformRecord fields acc r
      | some (shape, absence) =>
          match v with
          | .null =>
              let acc := Fields.erase k acc
              conformRecord fields
                (match absence with | .standsFor d => Fields.insert k d acc | _ => acc) r
          | v => do conformRecord fields (Fields.insert k (← conform? shape v) acc) r

end

end Shape

end ClusterInventory
