import ClusterInventory.Yaml.Node

/-! # Values of YAML documents

The value of a node is a JSON value. Plain scalars stand for what they look like, the standard tags
of scalars are obeyed, and no key may be repeated.
-/

namespace ClusterInventory.Yaml

namespace Node

def standardTag (name : String) : String := "tag:yaml.org,2002:" ++ name

def scalarValue? (tag : Option String) (plain : Bool) (text : String) : Option Json :=
  match tag with
  | some t =>
      if t = standardTag "bool" then (bool? text).map .bool
      else if t = standardTag "int" then (int? text.toList).map .int
      else if t = standardTag "float" then (double? text).map .double
      else if t = standardTag "null" then
        if isNull text ∧ text ≠ "" then some .null else none
      else if t.toList.head? = some '!' ∧ plain then some (resolve text)
      else some (.string text)
  | none => some (if plain then resolve text else .string text)

/-- Whether two keys are the same; keys that are collections are never compared. -/
def sameKey : Json → Json → Bool
  | .null, .null => true
  | .bool a, .bool b => a == b
  | .int a, .int b => a == b
  | .double a, .double b => a == b
  | .string a, .string b => a == b
  | _, _ => false

def hasRepeatedKey : List (Json × Json) → Bool
  | [] => false
  | (k, _) :: r => r.any (fun e => sameKey k e.1) || hasRepeatedKey r

/-- Only mappings whose keys are all texts are objects. Of any other nothing can be read, and it
becomes a number that is no number. -/
def ofEntries (entries : List (Json × Json)) : Json :=
  let texts := entries.mapM fun (k, v) => match k with
    | .string s => some (s, v)
    | _ => none
  match texts with
  | some fields => .object fields
  | none => .double Double.nan

mutual

/-- The value of a node whose collections are nested no deeper than `depth`. -/
def value? (depth : Nat) : Node → Option Json
  | scalar tag plain text => scalarValue? tag plain text
  | sequence items =>
      if depth = 0 then none else (values? (depth - 1) items).map .array
  | mapping entries =>
      if depth = 0 then none
      else
        match pairs? (depth - 1) entries with
        | some l => if hasRepeatedKey l then none else some (ofEntries l)
        | none => none
  | endless => none

def values? (depth : Nat) : List Node → Option (List Json)
  | [] => some []
  | n :: r => do return (← value? depth n) :: (← values? depth r)

def pair? (depth : Nat) : Node × Node → Option (Json × Json)
  | (k, v) => do return (← value? depth k, ← value? depth v)

def pairs? (depth : Nat) : List (Node × Node) → Option (List (Json × Json))
  | [] => some []
  | e :: r => do return (← pair? depth e) :: (← pairs? depth r)

end

def maxDepth : Nat := 128

end Node

end ClusterInventory.Yaml
