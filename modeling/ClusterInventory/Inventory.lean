import ClusterInventory.Cluster
import ClusterInventory.CommandLine
import ClusterInventory.Config
import ClusterInventory.LogFilter

/-! # The inventory program

An invocation connects to a cluster and runs one command there. What the program reads and writes,
the file system, the environment and the network among it, comes in and goes out as a value.
-/

namespace ClusterInventory

namespace Inventory

def name : String := "kollect"

def version : String := "0.1.0"

inductive Failure where
  | cluster (error : ClusterError)
  | config (error : Config.Failure)
  | nothingFetched (cluster : String)
  deriving DecidableEq, Repr

namespace Failure

def configContext : String := "cannot load configuration"

def message : Failure → String
  | cluster e => e.message
  | config _ => configContext
  | nothingFetched c => "no objects could be fetched from cluster '" ++ c ++ "'"

/-- The message with what is known of its cause. -/
def detail : Failure → String
  | config e => configContext ++ ": " ++ e.message
  | f => f.message

end Failure

/-! ## Commands -/

structure Effect where
  result : Except Failure Unit
  stdout : String := ""
  log : List Record := []

def requestFailure {α : Type} (e : RequestError) : Except Failure α :=
  .error (.cluster (.request e))

def printVersion (c : Cluster) : Exchange Effect := do
  match ← c.serverVersion with
  | .ok v => return { result := .ok (), stdout := v ++ "\n" }
  | .error e => return { result := requestFailure e }

def printKinds (c : Cluster) : Exchange Effect := do
  let found ← c.discoverKinds
  match found.value with
  | .ok kinds =>
      return { result := .ok ()
               stdout := String.join (kinds.map fun k => k.canonical ++ "\n")
               log := found.log }
  | .error e => return { result := requestFailure e, log := found.log }

/-- The kinds of the command line, or else of the configuration; without any, all are fetched. -/
def requestedKinds (config : Config) (arguments : FetchArguments) : Option (List Kind) :=
  if arguments.kinds ≠ [] then some (arguments.kinds.map fun k => (KindRef.ofText k).toKind)
  else if config.kinds ≠ [] then some config.kindList
  else none

def outcomeRecord? : Outcome → Option Record
  | .listed r listed kept =>
      some (Component.commands.record .debug (r.plural ++ " (" ++ r.apiVersion ++ "): " ++
        toString listed ++ " listed, " ++ toString kept ++ " kept"))
  | .skipped kind reason =>
      some (Component.commands.record .debug (kind.canonical ++ " skipped: " ++ reason.message))
  | .failed .. => none

def summary (r : Report) : Record :=
  Component.commands.record .info ("Fetched " ++ toString r.objects.length ++ " objects: " ++
    toString r.listedCount ++ " resources listed, " ++ toString r.skippedCount ++ " skipped, " ++
    toString r.failedCount ++ " failed")

/-- The end of a fetch: the report is logged and its objects are written, and it is a failure if
nothing could be collected. -/
def conclude (c : Cluster) (arguments : FetchArguments) (log : List Record) (report : Report) :
    Effect :=
  let objects :=
    if arguments.managedFields then report.objects
    else report.objects.map Object.stripManagedFields
  { result := if report.isTotalFailure then .error (.nothingFetched c.name) else .ok ()
    stdout := writeObjects arguments.output objects
    log := log ++ report.outcomes.filterMap outcomeRecord? ++ [summary report] }

/-- Fetches what is asked for; this fails only where the kinds to fetch cannot be discovered. -/
def collect (c : Cluster) (config : Config) (arguments : FetchArguments) :
    Exchange (Logged (Except RequestError Report)) := do
  let filter := config.filters.merge arguments.filter
  match requestedKinds config arguments with
  | some kinds =>
      let start := Component.commands.record .info
        ("Fetching " ++ toString kinds.length ++ " kinds from cluster '" ++ c.name ++ "'")
      let fetched ← c.fetchObjects kinds filter
      return ⟨.ok fetched.value, start :: fetched.log⟩
  | none =>
      let found ← c.discover
      match found.value with
      | .error e => return ⟨.error e, found.log⟩
      | .ok catalog =>
          let kinds := catalog.listableKinds
          let start := Component.commands.record .info
            ("Fetching " ++ toString kinds.length ++ " discovered kinds from cluster '" ++ c.name ++
              "'")
          let fetched ← c.fetchObjectsWith catalog.mapper kinds filter
          return ⟨.ok fetched.value, found.log ++ start :: fetched.log⟩

def fetch (c : Cluster) (config : Config) (arguments : FetchArguments) : Exchange Effect := do
  let collected ← collect c config arguments
  match collected.value with
  | .ok report => return conclude c arguments collected.log report
  | .error e => return { result := requestFailure e, log := collected.log }

/-! ## Invocations -/

structure Run where
  result : Except Failure Unit
  stdout : String
  requests : List String
  fileSystem : FileSystem
  log : List Record

abbrev Network := Uri → Server

/-- Connects, and then runs the command. Only a fetch needs the configuration. -/
def run (network : Network) (env : Environment) (fs : FileSystem) (i : Invocation) : Run :=
  let plan := i.plan
  let connected := plan.connectLog env fs
  match plan.connect env fs with
  | .error e => ⟨.error (.cluster e), "", [], fs, connected⟩
  | .ok connection =>
      let cluster : Cluster := ⟨connection.name, network connection.endpoint.url⟩
      let done (fs : FileSystem) (log : List Record) (command : Exchange Effect) : Run :=
        let (effect, requests) := command []
        ⟨effect.result, effect.stdout, requests, fs, log ++ effect.log⟩
      match i.command with
      | .version => done fs connected (printVersion cluster)
      | .kinds => done fs connected (printKinds cluster)
      | .fetch arguments =>
          let loaded := Config.loadOrCreate env fs i.config
          let log := connected ++ loaded.log
          match loaded.result with
          | .error e => ⟨.error (.config e), "", [], loaded.fileSystem, log⟩
          | .ok config => done loaded.fileSystem log (fetch cluster config arguments)

/-! ## The program -/

structure Exit where
  code : Nat
  error : Option String := none
  stdout : String := ""
  requests : List String := []
  fileSystem : FileSystem
  log : List Record := []

def versionText : String := name ++ " " ++ version ++ "\n"

def logFile (directory day : String) : String := Path.join directory (name ++ ".log." ++ day)

/-- Opens a log file that may be there already. -/
def touch (fs : FileSystem) (path : Path) : Except IoError FileSystem :=
  match fs.entry path with
  | .ok (.file _) => .ok fs
  | _ => fs.write path ""

/-- Opens the log file of a day, and makes its directory if that is what is missing. -/
def openLog (fs : FileSystem) (directory day : String) : Except IoError Unit × FileSystem :=
  let path := Path.ofText (logFile directory day)
  match touch fs path with
  | .ok fs => (.ok (), fs)
  | .error _ =>
      match fs.makeDirectories path.directory with
      | (.error e, fs) => (.error e, fs)
      | (.ok (), fs) =>
          match touch fs path with
          | .ok fs => (.ok (), fs)
          | .error e => (.error e, fs)

def brokenLogCode : Nat := 101

def signed (text : String) : String := name ++ " v" ++ version ++ " " ++ text

def execute (network : Network) (env : Environment) (fs : FileSystem) (day : String)
    (arguments : List String) : Exit :=
  match CommandLine.parse env arguments with
  | .error .displayVersion => { code := 0, stdout := versionText, fileSystem := fs }
  | .error e => { code := e.exitCode, fileSystem := fs }
  | .ok i =>
      let opened := match i.logDir with
        | some directory => openLog fs directory day
        | none => (.ok (), fs)
      match opened with
      | (.error _, fs) => { code := brokenLogCode, fileSystem := fs }
      | (.ok (), fs) =>
          let filter := LogFilter.ofVariable name (env.lookup "RUST_LOG")
          let run := run network env fs i
          let (code, error, last) : Nat × Option String × Record := match run.result with
            | .ok () => (0, none, Component.program.record .info (signed "stopped"))
            | .error f => (1, some ("Error: " ++ f.message),
                Component.program.record .error (signed ("terminated with an error: " ++ f.detail)))
          let log := Component.program.record .info (signed "started") :: run.log ++ [last]
          { code, error, stdout := run.stdout, requests := run.requests
            fileSystem := run.fileSystem, log := log.filter filter.shows }

def logPath (env : Environment) (day : String) (arguments : List String) : Option String :=
  match CommandLine.parse env arguments with
  | .ok i => i.logDir.map fun directory => logFile directory day
  | .error _ => none

def address (env : Environment) (fs : FileSystem) (arguments : List String) : Option Uri :=
  match CommandLine.parse env arguments with
  | .ok i =>
      match i.plan.connect env fs with
      | .ok connection => some connection.endpoint.url
      | .error _ => none
  | .error _ => none

end Inventory

end ClusterInventory
