import ClusterInventory.FileSystem
import ClusterInventory.Json.Shape
import ClusterInventory.Pem
import ClusterInventory.Uri
import ClusterInventory.Yaml.Value

/-! # Kubeconfigs

A kubeconfig names clusters, users and contexts; a context joins a cluster and a user. Several of
them can be merged, and then the first value of a name wins.
-/

namespace ClusterInventory

structure ClusterEntry where
  server : Option String
  insecure : Bool
  tlsServerName : Option String
  proxy : Option String
  /-- The certificate authority: a file with certificates, or such a text in base 64. -/
  authorityFile : Option String
  authorityData : Option String
  deriving DecidableEq, Repr, Inhabited

structure ContextEntry where
  cluster : String
  user : Option String
  namespaceName : Option String
  deriving DecidableEq, Repr, Inhabited

/-- An entry of a list, which may have a name alone. -/
structure Named (α : Type) where
  name : String
  value : Option α
  deriving DecidableEq, Repr, Inhabited

structure Kubeconfig where
  clusters : List (Named ClusterEntry) := []
  users : List (Named Unit) := []
  contexts : List (Named ContextEntry) := []
  currentContext : Option String := none
  kind : Option String := none
  apiVersion : Option String := none
  deriving DecidableEq, Repr, Inhabited

inductive KubeconfigError where
  | noCurrentContext
  | kindMismatch
  | versionMismatch
  | noContext (name : String)
  | noCluster (name : String)
  | noPath
  | noServer
  | read (error : IoError)
  | notYaml
  | misshapen
  | badServer
  | badProxy
  | badAuthority
  | badCertificates
  deriving DecidableEq, Repr

namespace Kubeconfig

/-! ## Shape -/

def extensions : String × Shape × Absence :=
  Shape.field "extensions"
    (.list (.record [Shape.required "name" .string, Shape.required "extension" .any]))

def clusterShape : Shape := .record [
  Shape.field "server" .string, Shape.field "insecure-skip-tls-verify" .bool,
  Shape.field "certificate-authority" .string, Shape.field "certificate-authority-data" .string,
  Shape.field "proxy-url" .string, Shape.field "disable-compression" .bool,
  Shape.field "tls-server-name" .string, extensions]

def contextShape : Shape := .record [
  Shape.required "cluster" .string, Shape.field "user" .string, Shape.field "namespace" .string,
  extensions]

def execShape : Shape := .record [
  Shape.field "apiVersion" .string, Shape.field "command" .string,
  Shape.field "args" (.list .string), Shape.field "env" (.list (.table .string)),
  Shape.field "interactiveMode" (.word ["Never", "IfAvailable", "Always"]),
  Shape.field "provideClusterInfo" .bool]

def userShape : Shape := .record [
  Shape.field "username" .string, Shape.field "password" .string, Shape.field "token" .string,
  Shape.field "tokenFile" .string, Shape.field "client-certificate" .string,
  Shape.field "client-certificate-data" .string, Shape.field "client-key" .string,
  Shape.field "client-key-data" .string, Shape.field "as" .string,
  Shape.field "as-groups" (.list .string),
  Shape.field "auth-provider"
    (.record [Shape.required "name" .string, Shape.field "config" (.table .string)]),
  Shape.field "exec" execShape]

def namedShape (key : String) (shape : Shape) : Shape :=
  .list (.record [Shape.required "name" .string, Shape.field key shape])

def shape : Shape := .record [
  Shape.field "preferences" (.record [Shape.field "colors" .bool, extensions]),
  Shape.field "clusters" (namedShape "cluster" clusterShape),
  Shape.field "users" (namedShape "user" userShape),
  Shape.field "contexts" (namedShape "context" contextShape),
  Shape.field "current-context" .string, extensions, Shape.field "kind" .string,
  Shape.field "apiVersion" .string]

/-! ## Reading -/

def text? (key : String) (v : Json) : Option String :=
  match v.get? key with
  | some (.string s) => some s
  | _ => none

def text (key : String) (v : Json) : String := (text? key v).getD ""

def flag (key : String) (v : Json) : Bool :=
  match v.get? key with
  | some (.bool b) => b
  | _ => false

def named {α : Type} (list key : String) (read : Json → α) (v : Json) : List (Named α) :=
  match v.get? list with
  | some (.array items) => items.map fun item => ⟨text "name" item, (item.get? key).map read⟩
  | _ => []

/-- Files are named from the directory of the kubeconfig. -/
def clusterEntry (directory : String) (v : Json) : ClusterEntry where
  server := text? "server" v
  insecure := flag "insecure-skip-tls-verify" v
  tlsServerName := text? "tls-server-name" v
  proxy := text? "proxy-url" v
  authorityFile := (text? "certificate-authority" v).map (Path.join directory)
  authorityData := text? "certificate-authority-data" v

def contextEntry (v : Json) : ContextEntry where
  cluster := text "cluster" v
  user := text? "user" v
  namespaceName := text? "namespace" v

def ofJson (directory : String) (v : Json) : Kubeconfig where
  clusters := named "clusters" "cluster" (clusterEntry directory) v
  users := named "users" "user" (fun _ => ()) v
  contexts := named "contexts" "context" contextEntry v
  currentContext := text? "current-context" v
  kind := text? "kind" v
  apiVersion := text? "apiVersion" v

/-- A document without a value is a kubeconfig without entries. -/
def ofDocument (directory : String) (document : Option Yaml.Node) :
    Except KubeconfigError Kubeconfig :=
  match document.bind (Yaml.Node.value? Yaml.Node.maxDepth) with
  | none => .error .notYaml
  | some v =>
      let v := match v with
        | .null => .object []
        | v => v
      match shape.conform? v with
      | some v => .ok (ofJson directory v)
      | none => .error .misshapen

/-! ## Merging -/

def addNamed {α : Type} (base more : List (Named α)) : List (Named α) :=
  base ++ more.filter fun e => !base.any fun b => b.name == e.name

def differ (a b : Option String) : Bool := a.isSome && b.isSome && a != b

def merge (a b : Kubeconfig) : Except KubeconfigError Kubeconfig :=
  if differ a.kind b.kind then .error .kindMismatch
  else if differ a.apiVersion b.apiVersion then .error .versionMismatch
  else .ok {
    clusters := addNamed a.clusters b.clusters
    users := addNamed a.users b.users
    contexts := addNamed a.contexts b.contexts
    currentContext := a.currentContext.or b.currentContext
    kind := a.kind.or b.kind
    apiVersion := a.apiVersion.or b.apiVersion }

def mergeAll (start : Kubeconfig) : List Kubeconfig → Except KubeconfigError Kubeconfig
  | [] => .ok start
  | k :: r => do (← merge start k).mergeAll r

/-! ## Files -/

def units16 (littleEndian : Bool) : List Nat → List Nat
  | a :: b :: r => (if littleEndian then b * 256 + a else a * 256 + b) :: units16 littleEndian r
  | _ => []

def decode16 : List Nat → Option (List Char)
  | [] => some []
  | [a] => if 0xD800 ≤ a ∧ a < 0xE000 then none else some [Char.ofNat a]
  | a :: b :: r =>
      if 0xD800 ≤ a ∧ a < 0xDC00 then
        if 0xDC00 ≤ b ∧ b < 0xE000 then
          (decode16 r).map (Char.ofNat (0x10000 + (a - 0xD800) * 0x400 + (b - 0xDC00)) :: ·)
        else none
      else if 0xDC00 ≤ a ∧ a < 0xE000 then none
      else (decode16 (b :: r)).map (Char.ofNat a :: ·)

/-- The text of a file; one that starts with the mark for it is read as UTF-16. -/
def contentText : Content → Option String
  | .text s => some (String.ofList (match s.toList with
      | c :: r => if c.toNat = 0xFEFF then r else c :: r
      | [] => []))
  | .binary (0xFF :: 0xFE :: r) => (decode16 (units16 true r)).map String.ofList
  | .binary (0xFE :: 0xFF :: r) => (decode16 (units16 false r)).map String.ofList
  | .binary _ => none

def directoryOf (path : String) : String :=
  let slashes := path.toList.reverse.dropWhile (· ≠ '/')
  match slashes with
  | [] => ""
  | ['/'] => "/"
  | _ :: r => String.ofList r.reverse

def readFile (fs : FileSystem) (path : String) : Except KubeconfigError Kubeconfig := do
  let text ← match fs.entry (Path.ofText path) with
    | .error e => .error (.read e)
    | .ok .directory => .error (.read .isADirectory)
    | .ok (.file content) =>
        match contentText content with
        | some text => .ok text
        | none => .error (.read .invalidData)
  match ← (Yaml.Node.documentsOf text).mapM (ofDocument (directoryOf path)) with
  | [] => return {}
  | first :: rest => first.mergeAll rest

def readFiles (fs : FileSystem) (start : Kubeconfig) :
    List String → Except KubeconfigError Kubeconfig
  | [] => .ok start
  | path :: r => do (← start.merge (← readFile fs path)).readFiles fs r

def defaultPath? (env : Environment) : Option String :=
  env.home.map fun home => Path.join home ".kube/config"

/-- The kubeconfig of an environment: the files of a variable merged, or the one in the home
directory if none is listed. -/
def read (env : Environment) (fs : FileSystem) : Except KubeconfigError Kubeconfig :=
  let listed := match env.lookup "KUBECONFIG" with
    | some value => (Path.split ':' [] value.toList).filter (· ≠ "")
    | none => []
  if listed = [] then
    match defaultPath? env with
    | some path => readFile fs path
    | none => .error .noPath
  else ({} : Kubeconfig).readFiles fs listed

/-! ## Selection -/

/-- The certificates that vouch for a server, if any are named. -/
def loadAuthority (fs : FileSystem) (c : ClusterEntry) :
    Except KubeconfigError (Option (List Octets)) := do
  let bundle : Option Octets ← match c.authorityData, c.authorityFile with
    | some text, _ =>
        match Base64.decode? text.toList with
        | some octets => .ok (some octets)
        | none => .error .badAuthority
    | none, some path =>
        match fs.entry (Path.ofText path) with
        | .ok (.file content) => .ok (some content.octets)
        | _ => .error .badAuthority
    | none, none => .ok none
  match bundle with
  | none => return none
  | some octets =>
      match Pem.certificates? octets with
      | some certificates => return some certificates
      | none => .error .badCertificates

def serverUrl (c : ClusterEntry) : Except KubeconfigError Uri :=
  match c.server with
  | none => .error .noServer
  | some server =>
      match Uri.parse? server with
      | some url => .ok url
      | none => .error .badServer

/-- The proxy of a cluster, or else of the environment; an empty one is none. -/
def proxyText (env : Environment) (c : ClusterEntry) : Option String :=
  let given (t : Option String) : Option String := t.filter (· ≠ "")
  ["HTTP_PROXY", "http_proxy", "HTTPS_PROXY", "https_proxy"].foldl
    (fun found name => found.or (given (env.lookup name))) (given c.proxy)

def proxyUrl (env : Environment) (c : ClusterEntry) : Except KubeconfigError (Option Uri) :=
  match proxyText env c with
  | none => .ok none
  | some text =>
      match Uri.parse? text with
      | some url => .ok (some url)
      | none => .error .badProxy

/-- The first entry of a name, if it has a value. -/
def findNamed {α : Type} (name : String) (list : List (Named α)) : Option α :=
  (list.find? (·.name == name)).bind Named.value

structure Endpoint where
  url : Uri
  namespaceName : String
  insecure : Bool
  tlsServerName : Option String
  authority : Option (List Octets)
  proxy : Option Uri
  deriving DecidableEq, Repr

def contextName (k : Kubeconfig) (context : Option String) : Option String :=
  context.or k.currentContext

/-- The entry of a context, or of the current one, and that of its cluster. -/
def select (k : Kubeconfig) (context : Option String) :
    Except KubeconfigError (ContextEntry × ClusterEntry) :=
  match k.contextName context with
  | none => .error .noCurrentContext
  | some name =>
      match findNamed name k.contexts with
      | none => .error (.noContext name)
      | some entry =>
          match findNamed entry.cluster k.clusters with
          | none => .error (.noCluster entry.cluster)
          | some cluster => .ok (entry, cluster)

def endpoint (k : Kubeconfig) (env : Environment) (fs : FileSystem) (context : Option String) :
    Except KubeconfigError Endpoint := do
  let (entry, cluster) ← k.select context
  let url ← serverUrl cluster
  let authority ← loadAuthority fs cluster
  let proxy ← proxyUrl env cluster
  let ns := (entry.namespaceName.filter (· ≠ "")).getD "default"
  return ⟨url, ns, cluster.insecure, cluster.tlsServerName, authority, proxy⟩

end Kubeconfig

end ClusterInventory
