import ClusterInventory.Http
import ClusterInventory.Inventory
import Std.Async.DNS
import Std.Async.TCP
import Std.Time.DateTime.Timestamp

/-! # The command line program

Reads the environment and the files that an invocation may ask for, runs the program on them, sends
the requests that it makes, and writes what it says.
-/

namespace ClusterInventory.Program

open Std.Async Std.Net

/-! ## Network -/

/-- All octets up to the end of the connection. -/
partial def receive (client : TCP.Socket.Client) (acc : ByteArray) : Async ByteArray := do
  match ← client.recv? 65536 with
  | some more => receive client (acc ++ more)
  | none => return acc

def sendTo (address : Uri) (path : String) : IO Answer := do
  let (host, port) := Http.hostAndPort address.authority
  if address.scheme != some "http" then return .unreachable "client error (Connect)"
  try
    let octets ← (do
      let found : Array IPAddr ← DNS.getAddrInfo host (toString port)
      let client ← TCP.Socket.Client.mk
      let target : SocketAddress ← match found[0]? with
        | some (IPAddr.v4 a) => pure (.v4 ⟨a, port.toUInt16⟩)
        | some (IPAddr.v6 a) => pure (.v6 ⟨a, port.toUInt16⟩)
        | none => throw (IO.userError host)
      client.connect target
      client.send (Http.requestText address.authority path).toUTF8
      receive client ByteArray.empty : Async ByteArray).block
    return Http.answerOf ((String.fromUTF8? octets).getD "")
  catch _ => return .unreachable "client error (Connect)"

/-- The servers as far as they have answered, in the order of the requests. -/
def answered (answers : List Answer) : Inventory.Network := fun address =>
  ⟨address.base, fun past _ => (answers[past.length]?).getD (.unreachable "")⟩

/-! ## Files -/

def variableNames : List String := [
  "HOME", "KUBECONFIG", "USE_LOCAL_DEV_MODE", "KUBERNETES_SERVICE_HOST", "KUBERNETES_SERVICE_PORT",
  "HTTP_PROXY", "http_proxy", "HTTPS_PROXY", "https_proxy", "RUST_LOG"]

def environment : IO Environment := do
  let found ← variableNames.mapM fun name => return (← IO.getEnv name).map (name, ·)
  return found.filterMap id

/-- Adds what a path leads to. -/
def look (fs : FileSystem) (path : String) : IO FileSystem := do
  try
    let octets ← IO.FS.readBinFile path
    return fs.withFile (Path.ofText path) (match String.fromUTF8? octets with
      | some text => .text text
      | none => .binary (octets.toList.map UInt8.toNat))
  catch _ =>
    if ← ((← IO.currentDir) / path).isDir then
      return (fs.makeDirectories (Path.ofText path)).2
    else return fs

/-- The paths that an invocation may ask for, kubeconfigs among them. -/
def candidates (env : Environment) (arguments : List String) : List String :=
  let attached := arguments.map fun a => String.ofList ((a.toList.dropWhile (· ≠ '=')).drop 1)
  let listed := Path.split ':' [] ((env.lookup "KUBECONFIG").getD "").toList
  (arguments ++ attached ++ listed ++ (Kubeconfig.defaultPath? env).toList ++
    [Config.defaultPath env, ConnectionSource.namespaceFile,
      ConnectionSource.authorityFile]).filter (· ≠ "")

/-- The certificate authorities that kubeconfigs name. -/
def authorities (fs : FileSystem) (paths : List String) : List String :=
  paths.flatMap fun path =>
    match Kubeconfig.readFile fs path with
    | .ok k => k.clusters.filterMap fun c => c.value.bind ClusterEntry.authorityFile
    | .error _ => []

def fileSystem (env : Environment) (arguments : List String) : IO FileSystem := do
  let paths := candidates env arguments
  let fs ← paths.foldlM look ⟨[]⟩
  (authorities fs paths).foldlM look fs

def placeText : Place → String
  | "/" :: names => "/" ++ "/".intercalate names
  | names => "/".intercalate names

/-- Writes the entries that are not as they were. -/
def keep (before after : FileSystem) : IO Unit :=
  after.entries.reverse.forM fun (place, entry) => do
    if before.find? place != some entry then
      match entry with
      | .directory => IO.FS.createDirAll (placeText place)
      | .file (.text text) => IO.FS.writeFile (placeText place) text
      | .file (.binary _) => pure ()

/-! ## Running -/

/-- Runs the program again and again, each time with one more answer, until no request is open. -/
partial def answer (env : Environment) (fs : FileSystem) (day : String) (arguments : List String)
    (answers : List Answer) : IO Inventory.Exit := do
  let done := Inventory.execute (answered answers) env fs day arguments
  match done.requests[answers.length]?, Inventory.address env fs arguments with
  | some path, some address =>
      answer env fs day arguments (answers ++ [← sendTo address path])
  | _, _ => return done

def today : IO String := do
  let now ← Std.Time.Timestamp.now
  let written := Timestamp.write ⟨now.toSecondsSinceUnixEpoch.val, false⟩
  return String.ofList (written.toList.take 10)

def report (fs : FileSystem) (day : String) (arguments : List String) (env : Environment)
    (done : Inventory.Exit) : IO Unit := do
  keep fs done.fileSystem
  let lines := String.join (done.log.map Record.line)
  match Inventory.logPath env day arguments with
  | some path =>
      let file ← IO.FS.Handle.mk path .append
      file.putStr lines
  | none => IO.eprint lines
  IO.print done.stdout
  done.error.forM IO.eprintln

end ClusterInventory.Program

open ClusterInventory in
def main (arguments : List String) : IO UInt32 := do
  let env ← Program.environment
  let fs ← Program.fileSystem env arguments
  let day ← Program.today
  let done ← Program.answer env fs day arguments []
  Program.report fs day arguments env done
  return done.code.toUInt32
