import ClusterInventory.Kubeconfig
import ClusterInventory.Log
import ClusterInventory.Server

/-! # Connections

A plan is an ordered list of sources of a connection. The first source that applies is the only
one that is tried.
-/

namespace ClusterInventory

inductive ConnectionSource where
  | kubeconfig (path context : Option String)
  | localDev (enabled : Bool) (path : Option String)
  | injected (endpoint : Option Kubeconfig.Endpoint)
  | inCluster
  deriving DecidableEq, Repr

inductive InClusterError where
  | noVariable
  | badPort
  | badUrl
  | noNamespace
  | noAuthority
  | badCertificates
  deriving DecidableEq, Repr

inductive ClusterError where
  | noHome
  | noSource
  | kubeconfig (error : KubeconfigError)
  | inCluster (error : InClusterError)
  | request (error : RequestError)
  deriving DecidableEq, Repr

def ClusterError.message : ClusterError → String
  | noHome => "failed to determine users home directory"
  | noSource => "no applicable cluster connection source"
  | kubeconfig _ => "failed to process kube configuration"
  | inCluster _ => "failed to load in-cluster configuration"
  | request _ => "kubernetes client error"

structure Connection where
  endpoint : Kubeconfig.Endpoint
  name : String
  source : String
  deriving DecidableEq, Repr

/-- Why no client can be made for a connection: clients speak to servers directly. -/
def Connection.refusal? (c : Connection) : Option RequestError :=
  c.endpoint.proxy.map fun proxy =>
    match proxy.scheme with
    | some "http" => .proxyDisabled proxy "kube/http-proxy"
    | some "socks5" => .proxyDisabled proxy "kube/socks5"
    | _ => .proxyUnsupported proxy

namespace ConnectionSource

def isApplicable : ConnectionSource → Bool
  | kubeconfig .. => true
  | localDev enabled _ => enabled
  | injected endpoint => endpoint.isSome
  | inCluster => true

def name : ConnectionSource → String
  | kubeconfig .. => "kubeconfig"
  | localDev .. => "local-dev"
  | injected _ => "injected"
  | inCluster => "in-cluster"

/-! ## The pod's own cluster -/

def hexGroup (cs : List Char) : Bool :=
  cs ≠ [] && cs.length ≤ 4 && cs.all fun c => (Yaml.digit? 16 c).isSome

def isIPv4 (cs : List Char) : Bool :=
  let parts := (Path.split '.' [] cs).map String.toList
  parts.length == 4 && parts.all fun p =>
    match Yaml.natural? 10 p with
    | some n => n ≤ 255 && (p.length = 1 || p.head? != some '0')
    | none => false

/-- How many groups of 16 bits a list of parts makes up; the last part may be an IPv4 address. -/
def groupCount? : List (List Char) → Option Nat
  | [] => some 0
  | [p] => if hexGroup p then some 1 else if isIPv4 p then some 2 else none
  | p :: r => if hexGroup p then (groupCount? r).map (· + 1) else none

def isIPv6 (cs : List Char) : Bool :=
  let groups (cs : List Char) : List (List Char) :=
    if cs.isEmpty then [] else (Path.split ':' [] cs).map String.toList
  let cuts := (List.range cs.length).filter fun i => "::".toList.isPrefixOf (cs.drop i)
  match cuts with
  | [] => groupCount? (groups cs) == some 8
  | i :: _ =>
      let left := groups (cs.take i)
      match left.all hexGroup, groupCount? (groups (cs.drop (i + 2))) with
      | true, some n => left.length + n ≤ 7
      | _, _ => false

def port? (text : String) : Option Nat :=
  let cs := match text.toList with
    | '+' :: r => r
    | r => r
  (Yaml.natural? 10 cs).filter (· < 65536)

/-- The address of the cluster from the variables of a pod. Port 443 is left out. -/
def podUrl (env : Environment) : Except InClusterError Uri := do
  let host ← match env.lookup "KUBERNETES_SERVICE_HOST" with
    | some h => .ok h
    | none => .error .noVariable
  let port ← match env.lookup "KUBERNETES_SERVICE_PORT" with
    | some p => match port? p with
        | some n => .ok n
        | none => .error .badPort
    | none => .error .noVariable
  let host := if isIPv6 host.toList then "[" ++ host ++ "]" else host
  match Uri.parse? ("https://" ++ host ++ (if port = 443 then "" else ":" ++ toString port)) with
  | some url => .ok url
  | none => .error .badUrl

def namespaceFile : String := "/var/run/secrets/kubernetes.io/serviceaccount/namespace"

def authorityFile : String := "/var/run/secrets/kubernetes.io/serviceaccount/ca.crt"

def inClusterEndpoint (env : Environment) (fs : FileSystem) :
    Except InClusterError Kubeconfig.Endpoint := do
  let url ← podUrl env
  match fs.read (Path.ofText namespaceFile) with
  | .error _ => .error .noNamespace
  | .ok ns =>
      match fs.entry (Path.ofText authorityFile) with
      | .ok (.file content) =>
          match Pem.certificates? content.octets with
          | some certificates => return ⟨url, ns, false, none, some certificates, none⟩
          | none => .error .badCertificates
      | _ => .error .noAuthority

/-! ## Resolving -/

/-- Connects by a kubeconfig; the name is that of the context. -/
def fromKubeconfig (env : Environment) (fs : FileSystem) (source : String)
    (kubeconfig : Except KubeconfigError Kubeconfig) (context : Option String) :
    Except ClusterError Connection :=
  match kubeconfig with
  | .error e => .error (.kubeconfig e)
  | .ok k =>
      match k.endpoint env fs context with
      | .error e => .error (.kubeconfig e)
      | .ok endpoint => .ok ⟨endpoint, (k.contextName context).getD "", source⟩

def resolve (s : ConnectionSource) (env : Environment) (fs : FileSystem) :
    Except ClusterError Connection :=
  match s with
  | kubeconfig (some path) context =>
      fromKubeconfig env fs s.name (Kubeconfig.readFile fs path) context
  | kubeconfig none context => fromKubeconfig env fs s.name (Kubeconfig.read env fs) context
  | localDev _ (some path) => fromKubeconfig env fs s.name (Kubeconfig.readFile fs path) none
  | localDev _ none =>
      match Kubeconfig.defaultPath? env with
      | some path => fromKubeconfig env fs s.name (Kubeconfig.readFile fs path) none
      | none => .error .noHome
  | injected (some endpoint) => .ok ⟨endpoint, s.name, s.name⟩
  | injected none => .error .noSource
  | inCluster =>
      match inClusterEndpoint env fs with
      | .ok endpoint => .ok ⟨endpoint, s.name, s.name⟩
      | .error e => .error (.inCluster e)

end ConnectionSource

/-- Sources in the order in which they are looked at. -/
structure ConnectionPlan where
  sources : List ConnectionSource
  deriving DecidableEq, Repr

namespace ConnectionPlan

def ofKubeconfig (path context : Option String) : ConnectionPlan := ⟨[.kubeconfig path context]⟩

/-- Local development first, then an injected endpoint, then the cluster of the pod. -/
def ambient (localDev : Bool) (injected : Option Kubeconfig.Endpoint) : ConnectionPlan :=
  ⟨[.localDev localDev none, .injected injected, .inCluster]⟩

def select (p : ConnectionPlan) : Option ConnectionSource :=
  p.sources.find? ConnectionSource.isApplicable

def resolve (p : ConnectionPlan) (env : Environment) (fs : FileSystem) :
    Except ClusterError Connection :=
  match p.sources.find? ConnectionSource.isApplicable with
  | some s => s.resolve env fs
  | none => .error .noSource

/-- What is logged before the source is resolved. -/
def resolveLog (p : ConnectionPlan) : List Record :=
  match p.sources.find? ConnectionSource.isApplicable with
  | some s => [Component.connections.record .debug
      ("Resolving cluster connection from " ++ s.name ++ " source")]
  | none => []

/-- What is logged once there is a client. -/
def usingRecord (c : Connection) : Record :=
  Component.clusters.record .info
    ("Using cluster '" ++ c.name ++ "' from " ++ c.source ++ " configuration")

/-- A connection that a client can use. -/
def connect (p : ConnectionPlan) (env : Environment) (fs : FileSystem) :
    Except ClusterError Connection := do
  let c ← p.resolve env fs
  match c.refusal? with
  | some e => .error (.request e)
  | none => return c

def connectLog (p : ConnectionPlan) (env : Environment) (fs : FileSystem) : List Record :=
  p.resolveLog ++ match p.connect env fs with
    | .ok c => [usingRecord c]
    | .error _ => []

end ConnectionPlan

end ClusterInventory
