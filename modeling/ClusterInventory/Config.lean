import ClusterInventory.FileSystem
import ClusterInventory.Filter
import ClusterInventory.KindRef
import ClusterInventory.Log
import ClusterInventory.Yaml.Node
import ClusterInventory.Yaml.Printer

/-! # Configuration

The configuration holds the filter of a cluster inventory and the kinds that are fetched when none
are asked for. It is kept as a YAML document.
-/

namespace ClusterInventory

namespace Filter

def ofEntries? (entries : List (String × Yaml.Node)) : Option Filter := do
  let list (key : String) : Option (List String) := do
    match ← Yaml.Node.entry? key entries with
    | some n => n.texts?
    | none => some []
  return {
    selectKinds := ← list "select_kinds"
    ignoreKinds := ← list "ignore_kinds"
    selectNamespaces := ← list "select_namespaces"
    ignoreNamespaces := ← list "ignore_namespaces" }

def ofNode? (n : Yaml.Node) : Option Filter := n.entries?.bind ofEntries?

def ofYaml? (text : String) : Option Filter := (Yaml.Node.ofText? text).bind ofNode?

def toJson (f : Filter) : Json :=
  let list (l : List String) : Json := .array (l.map .string)
  .object [("select_kinds", list f.selectKinds), ("ignore_kinds", list f.ignoreKinds),
    ("select_namespaces", list f.selectNamespaces), ("ignore_namespaces", list f.ignoreNamespaces)]

def toYaml (f : Filter) : String := Yaml.print f.toJson

end Filter

structure Config where
  filters : Filter := {}
  kinds : List String := []
  deriving DecidableEq, Repr, Inhabited

namespace Config

def ofYaml? (text : String) : Option Config := do
  let entries ← (← Yaml.Node.ofText? text).entries?
  let filters ← match ← Yaml.Node.entry? "filters" entries with
    | some n => Filter.ofNode? n
    | none => some {}
  let kinds ← match ← Yaml.Node.entry? "kinds" entries with
    | some n => n.texts?
    | none => some []
  return { filters, kinds }

def toYaml (c : Config) : String :=
  Yaml.print (.object [("filters", c.filters.toJson), ("kinds", .array (c.kinds.map .string))])

def kindList (c : Config) : List Kind := c.kinds.map fun k => (KindRef.ofText k).toKind

/-! ## Files -/

inductive Failure where
  | io (error : IoError)
  | format
  deriving DecidableEq, Repr

def Failure.message : Failure → String
  | io _ => "cannot read/write configuration file"
  | format => "cannot serialize/deserialize configuration"

def application : String := "kollect"

/-- Where the configuration is kept if no other place is named. -/
def defaultPath (env : Environment) : String :=
  match env.home with
  | some home => Path.join (Path.join home ("." ++ application)) "config.yaml"
  | none => "config.yaml"

def load (fs : FileSystem) (path : String) : Except Failure Config :=
  match fs.read (Path.ofText path) with
  | .error e => .error (.io e)
  | .ok text =>
      match ofYaml? text with
      | some c => .ok c
      | none => .error .format

/-- Writes the configuration to a file and makes the directories for it. Directories that were made
before a failure stay. -/
def save (c : Config) (fs : FileSystem) (path : String) : Except Failure Unit × FileSystem :=
  match fs.makeDirectories (Path.ofText path).directory with
  | (.error e, fs) => (.error (.io e), fs)
  | (.ok (), fs) =>
      match fs.write (Path.ofText path) c.toYaml with
      | .error e => (.error (.io e), fs)
      | .ok fs => (.ok (), fs)

structure Loaded where
  result : Except Failure Config
  fileSystem : FileSystem
  log : List Record

/-- Loads the configuration. Only the default file is created, where nothing can be opened at its
path; a file to which the path leads once its directories are made is overwritten. -/
def loadOrCreate (env : Environment) (fs : FileSystem) (path : Option String) : Loaded :=
  match path with
  | some path => ⟨load fs path, fs, []⟩
  | none =>
      let path := defaultPath env
      match load fs path with
      | .error (.io .notFound) =>
          let (saved, fs) := ({} : Config).save fs path
          let note := Component.configuration.record .info ("Creating default config at " ++ path)
          ⟨saved.map fun _ => {}, fs, [note]⟩
      | result => ⟨result, fs, []⟩

end Config

end ClusterInventory
