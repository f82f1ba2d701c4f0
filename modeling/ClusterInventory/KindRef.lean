import ClusterInventory.Kind

/-! # Kind references

A reference is the text `Kind[.group][/version]` together with the places of its two separators.
The first slash starts the version. The first dot starts the group, but only where it stands
before that slash: a later dot belongs to the version.
-/

namespace ClusterInventory

/-- Places are counted in characters from the start of the text. -/
structure KindRef where
  text : String
  groupAt : Option Nat
  versionAt : Option Nat
  deriving Repr

namespace KindRef

def find (c : Char) : List Char → Option Nat
  | [] => none
  | d :: r => if d = c then some 0 else (find c r).map (· + 1)

/-- The places of the group and the version separator of a text. -/
def separators (text : List Char) : Option Nat × Option Nat :=
  let version := find '/' text
  let group := (find '.' text).filter fun g => version.all (g < ·)
  (group, version)

/-- A text refers to itself, except that the core version of an empty group is dropped together
with its separators. -/
def ofText (text : String) : KindRef :=
  let cs := text.toList
  match separators cs with
  | (some g, some v) =>
      if g + 1 = v ∧ cs.drop (v + 1) = coreVersion.toList then
        ⟨String.ofList (cs.take g), none, none⟩
      else ⟨text, some g, some v⟩
  | (group, version) => ⟨text, group, version⟩

def ofParts (name group version : String) : KindRef :=
  if group = "" ∧ (version = "" ∨ version = coreVersion) then ofText name
  else if version = "" then ofText (name ++ "." ++ group)
  else ofText (name ++ "." ++ group ++ "/" ++ version)

def ofKind (kind : Kind) : KindRef := ofParts kind.name kind.group kind.version

def empty : KindRef := ⟨"", none, none⟩

def name (r : KindRef) : String :=
  match r.groupAt.or r.versionAt with
  | some stop => String.ofList (r.text.toList.take stop)
  | none => r.text

def group (r : KindRef) : String :=
  match r.groupAt, r.versionAt with
  | some g, some v => if g + 1 < v then String.ofList ((r.text.toList.take v).drop (g + 1)) else ""
  | some g, none => String.ofList (r.text.toList.drop (g + 1))
  | none, _ => ""

def version (r : KindRef) : String :=
  match r.versionAt with
  | some v => String.ofList (r.text.toList.drop (v + 1))
  | none => ""

def toKind (r : KindRef) : Kind := ⟨r.group, r.version, r.name⟩

/-- References are compared by their text. -/
instance : BEq KindRef := ⟨fun a b => a.text == b.text⟩

instance : ToString KindRef := ⟨text⟩

end KindRef

def Kind.canonical (kind : Kind) : String := (KindRef.ofKind kind).text

end ClusterInventory
