/-! # Log records

A record has a level, the component that wrote it, and a message.
-/

namespace ClusterInventory

inductive Level where
  | error
  | warn
  | info
  | debug
  | trace
  deriving DecidableEq, Repr, Inhabited

namespace Level

def name : Level → String
  | error => "error"
  | warn => "warn"
  | info => "info"
  | debug => "debug"
  | trace => "trace"

/-- The more detail, the higher the rank. -/
def rank : Level → Nat
  | error => 1
  | warn => 2
  | info => 3
  | debug => 4
  | trace => 5

end Level

structure Record where
  level : Level
  target : String
  message : String
  deriving DecidableEq, Repr, Inhabited

inductive Component where
  | program
  | commands
  | configuration
  | connections
  | clusters
  | discovery
  | fetching
  deriving DecidableEq, Repr, Inhabited

namespace Component

/-- The name by which log filters know a component. One name may begin with another. -/
def target : Component → String
  | program => "kollect"
  | commands => "kollect::commands"
  | configuration => "kollect_config::persistable"
  | connections => "kollect_kube::client"
  | clusters => "kollect_kube::cluster"
  | discovery => "kollect_kube::discovery"
  | fetching => "kollect_kube::fetcher"

def record (c : Component) (level : Level) (message : String) : Record :=
  ⟨level, c.target, message⟩

end Component

def Record.line (r : Record) : String :=
  String.ofList (r.level.name.toList.map Char.toUpper) ++ " " ++ r.target ++ ": " ++ r.message ++
    "\n"

end ClusterInventory
