import ClusterInventory.Proofs.Plan

/-! # Which context a connection is named for

A connection by a kubeconfig has the name of the context that it comes from: the one that is asked
for, or else the current one. Names may be given more than once or lead nowhere; the first entry of
a name is the one that counts, for contexts as well as for clusters.
-/

namespace ClusterInventory

namespace Kubeconfig

/-! ## Entries -/

def Gives {α : Type} (entries : List (Named α)) (name : String) (value : α) : Prop :=
  IsFirst (·.name = name) entries ⟨name, some value⟩

theorem findNamed_eq_some_iff {α : Type} (entries : List (Named α)) (name : String) (value : α) :
    findNamed name entries = some value ↔ Gives entries name value := by
  have hFind := find?_eq_some_iff_isFirst (p := fun e : Named α => e.name = name)
    (fun _ => beq_iff_eq) entries
  rw [findNamed, Option.bind_eq_some_iff, Gives, ← hFind]
  constructor
  · rintro ⟨e, hFound, hValue⟩
    have hName := List.find?_some hFound
    obtain rfl := beq_iff_eq.mp hName
    rw [hFound, ← hValue]
  · intro hFound
    exact ⟨⟨name, some value⟩, hFound, rfl⟩

theorem findNamed_eq_none_iff {α : Type} (entries : List (Named α)) (name : String) :
    findNamed name entries = none ↔ ∀ value, ¬Gives entries name value := by
  simp only [← findNamed_eq_some_iff, Option.eq_none_iff_forall_ne_some]

inductive Asks (k : Kubeconfig) : Option String → String → Prop
  | given (name : String) : Asks k (some name) name
  | current {name : String} (hCurrent : k.currentContext = some name) : Asks k none name

theorem contextName_eq_some_iff (k : Kubeconfig) (context : Option String) (name : String) :
    k.contextName context = some name ↔ k.Asks context name := by
  constructor
  · intro hName
    cases context with
    | some given => cases hName; exact .given name
    | none => exact .current hName
  · rintro (_ | hCurrent)
    · rfl
    · exact hCurrent

/-! ## Selection -/

structure Selects (k : Kubeconfig) (context : Option String) (name : String)
    (entry : ContextEntry) (cluster : ClusterEntry) : Prop where
  asks : k.Asks context name
  context : Gives k.contexts name entry
  cluster : Gives k.clusters entry.cluster cluster

inductive Lacks (k : Kubeconfig) (context : Option String) : KubeconfigError → Prop
  | currentContext (hGiven : context = none) (hCurrent : k.currentContext = none) :
      Lacks k context .noCurrentContext
  | context {name : String} (hAsks : k.Asks context name)
      (hMissing : ∀ entry, ¬Gives k.contexts name entry) : Lacks k context (.noContext name)
  | cluster {name : String} {entry : ContextEntry} (hAsks : k.Asks context name)
      (hContext : Gives k.contexts name entry)
      (hMissing : ∀ cluster, ¬Gives k.clusters entry.cluster cluster) :
      Lacks k context (.noCluster entry.cluster)

variable {k : Kubeconfig} {context : Option String}

theorem Selects.select_eq {name : String} {entry : ContextEntry} {cluster : ClusterEntry}
    (h : k.Selects context name entry cluster) : k.select context = .ok (entry, cluster) := by
  rw [select, (k.contextName_eq_some_iff context name).mpr h.asks]
  simp only [(findNamed_eq_some_iff _ _ _).mpr h.context,
    (findNamed_eq_some_iff _ _ _).mpr h.cluster]

theorem Lacks.select_eq {e : KubeconfigError} (h : k.Lacks context e) :
    k.select context = .error e := by
  cases h with
  | currentContext hGiven hCurrent => rw [select, contextName, hGiven, hCurrent]; rfl
  | @context name hAsks hMissing =>
    rw [select, (k.contextName_eq_some_iff context name).mpr hAsks]
    simp only [(findNamed_eq_none_iff _ _).mpr hMissing]
  | @cluster name entry hAsks hContext hMissing =>
    rw [select, (k.contextName_eq_some_iff context name).mpr hAsks]
    simp only [(findNamed_eq_some_iff _ _ _).mpr hContext, (findNamed_eq_none_iff _ _).mpr hMissing]

theorem selects_or_lacks (k : Kubeconfig) (context : Option String) :
    (∃ name entry cluster, k.Selects context name entry cluster) ∨ ∃ e, k.Lacks context e := by
  cases hName : k.contextName context with
  | none =>
    rw [contextName, Option.or_eq_none_iff] at hName
    exact .inr ⟨_, .currentContext hName.1 hName.2⟩
  | some name =>
    have hAsks := (k.contextName_eq_some_iff context name).mp hName
    cases hContext : findNamed name k.contexts with
    | none => exact .inr ⟨_, .context hAsks ((findNamed_eq_none_iff _ _).mp hContext)⟩
    | some entry =>
      have hEntry := (findNamed_eq_some_iff _ _ _).mp hContext
      cases hCluster : findNamed entry.cluster k.clusters with
      | none => exact .inr ⟨_, .cluster hAsks hEntry ((findNamed_eq_none_iff _ _).mp hCluster)⟩
      | some cluster =>
        exact .inl ⟨name, entry, cluster, hAsks, hEntry, (findNamed_eq_some_iff _ _ _).mp hCluster⟩

/-! ## Endpoints -/

structure Endpoint.Follows (env : Environment) (fs : FileSystem) (entry : ContextEntry)
    (cluster : ClusterEntry) (e : Endpoint) : Prop where
  url : ∃ server, cluster.server = some server ∧ Uri.parse? server = some e.url
  namespaceGiven : ∀ name, entry.namespaceName = some name → name ≠ "" → e.namespaceName = name
  namespaceMissing : entry.namespaceName = none ∨ entry.namespaceName = some "" →
    e.namespaceName = "default"
  insecure : e.insecure = cluster.insecure
  tlsServerName : e.tlsServerName = cluster.tlsServerName
  authority : loadAuthority fs cluster = .ok e.authority
  proxy : proxyUrl env cluster = .ok e.proxy

theorem serverUrl_eq_ok_iff (cluster : ClusterEntry) (url : Uri) :
    serverUrl cluster = .ok url ↔
      ∃ server, cluster.server = some server ∧ Uri.parse? server = some url := by
  rw [serverUrl]
  cases hServer : cluster.server with
  | none => simp
  | some server => cases hUrl : Uri.parse? server <;> simp [hUrl]

theorem namespace_eq_iff (given : Option String) (ns : String) :
    (given.filter (· ≠ "")).getD "default" = ns ↔
      (∀ name, given = some name → name ≠ "" → ns = name) ∧
        (given = none ∨ given = some "" → ns = "default") := by
  cases given with
  | none => simp [eq_comm]
  | some name =>
    by_cases hName : name = ""
    · simp [Option.filter, hName, eq_comm]
    · simp [Option.filter, hName, eq_comm]

variable {name : String} {entry : ContextEntry} {cluster : ClusterEntry}

theorem Selects.endpoint_eq_ok_iff (h : k.Selects context name entry cluster) (env : Environment)
    (fs : FileSystem) (e : Endpoint) :
    k.endpoint env fs context = .ok e ↔ e.Follows env fs entry cluster := by
  have hNamespace := namespace_eq_iff entry.namespaceName
  simp only [endpoint, h.select_eq, bind, Except.bind]
  constructor
  · intro hEndpoint
    split at hEndpoint
    · cases hEndpoint
    · rename_i url hUrl
      split at hEndpoint
      · cases hEndpoint
      · rename_i authority hAuthority
        split at hEndpoint
        · cases hEndpoint
        · rename_i proxy hProxy
          cases hEndpoint
          obtain ⟨hGiven, hMissing⟩ := (hNamespace _).mp rfl
          exact ⟨(serverUrl_eq_ok_iff cluster url).mp hUrl, hGiven, hMissing, rfl, rfl, hAuthority,
            hProxy⟩
  · intro hFollows
    have hGiven := (hNamespace _).mpr ⟨hFollows.namespaceGiven, hFollows.namespaceMissing⟩
    rw [(serverUrl_eq_ok_iff cluster e.url).mpr hFollows.url, hFollows.authority, hFollows.proxy,
      hGiven, ← hFollows.insecure, ← hFollows.tlsServerName]
    rfl

theorem Lacks.endpoint_eq {e : KubeconfigError} (h : k.Lacks context e) (env : Environment)
    (fs : FileSystem) : k.endpoint env fs context = .error e := by
  rw [endpoint, h.select_eq]
  rfl

end Kubeconfig

namespace ConnectionSource

/-! ## Sources -/

inductive ReadsKubeconfig : ConnectionSource → Prop
  | kubeconfig (path context : Option String) : ReadsKubeconfig (.kubeconfig path context)
  | localDev (enabled : Bool) (path : Option String) : ReadsKubeconfig (.localDev enabled path)

def asked : ConnectionSource → Option String
  | kubeconfig _ context => context
  | _ => none

variable {env : Environment} {fs : FileSystem}

inductive Opens (env : Environment) (fs : FileSystem) : ConnectionSource → Kubeconfig → Prop
  | file {path : String} {context : Option String} {k : Kubeconfig}
      (hRead : Kubeconfig.readFile fs path = .ok k) :
      Opens env fs (.kubeconfig (some path) context) k
  | environment {context : Option String} {k : Kubeconfig}
      (hRead : Kubeconfig.read env fs = .ok k) : Opens env fs (.kubeconfig none context) k
  | localFile {enabled : Bool} {path : String} {k : Kubeconfig}
      (hRead : Kubeconfig.readFile fs path = .ok k) :
      Opens env fs (.localDev enabled (some path)) k
  | home {enabled : Bool} {path : String} {k : Kubeconfig}
      (hHome : Kubeconfig.defaultPath? env = some path)
      (hRead : Kubeconfig.readFile fs path = .ok k) : Opens env fs (.localDev enabled none) k

theorem Opens.resolve_eq {s : ConnectionSource} {k : Kubeconfig} (h : s.Opens env fs k) :
    s.resolve env fs = fromKubeconfig env fs s.name (.ok k) s.asked := by
  cases h with
  | file hRead => rw [resolve, hRead, asked]
  | environment hRead => rw [resolve, hRead, asked]
  | localFile hRead => rw [resolve, hRead]; rfl
  | home hHome hRead =>
    rw [resolve, hHome]
    simp only [hRead, asked]

theorem exists_of_fromKubeconfig_eq_ok {source : String}
    {opened : Except KubeconfigError Kubeconfig} {context : Option String} {c : Connection}
    (h : fromKubeconfig env fs source opened context = .ok c) : ∃ k, opened = .ok k := by
  cases opened with
  | error e => cases h
  | ok k => exact ⟨k, rfl⟩

theorem exists_opens_of_resolve {s : ConnectionSource} (hReads : s.ReadsKubeconfig)
    {c : Connection} (h : s.resolve env fs = .ok c) : ∃ k, s.Opens env fs k := by
  cases hReads with
  | kubeconfig path context =>
    cases path with
    | some path =>
      obtain ⟨k, hRead⟩ := exists_of_fromKubeconfig_eq_ok h
      exact ⟨k, .file hRead⟩
    | none =>
      obtain ⟨k, hRead⟩ := exists_of_fromKubeconfig_eq_ok h
      exact ⟨k, .environment hRead⟩
  | localDev enabled path =>
    cases path with
    | some path =>
      obtain ⟨k, hRead⟩ := exists_of_fromKubeconfig_eq_ok h
      exact ⟨k, .localFile hRead⟩
    | none =>
      rw [resolve] at h
      split at h
      · rename_i path hHome
        obtain ⟨k, hRead⟩ := exists_of_fromKubeconfig_eq_ok h
        exact ⟨k, .home hHome hRead⟩
      · cases h

/-- The name that stands for a missing context never comes out: without a context there is no
endpoint. -/
theorem fromKubeconfig_eq_ok_iff (source : String) (k : Kubeconfig) (context : Option String)
    (c : Connection) :
    fromKubeconfig env fs source (.ok k) context = .ok c ↔
      c.source = source ∧ ∃ entry cluster, k.Selects context c.name entry cluster ∧
        c.endpoint.Follows env fs entry cluster := by
  constructor
  · intro h
    simp only [fromKubeconfig] at h
    rcases k.selects_or_lacks context with ⟨name, entry, cluster, hSelects⟩ | ⟨e, hLacks⟩
    · simp only [(k.contextName_eq_some_iff context name).mpr hSelects.asks] at h
      split at h
      · cases h
      · rename_i endpoint hEndpoint
        cases h
        have hFollows := (hSelects.endpoint_eq_ok_iff env fs endpoint).mp hEndpoint
        exact ⟨rfl, entry, cluster, hSelects, hFollows⟩
    · simp only [hLacks.endpoint_eq env fs] at h
      cases h
  · rintro ⟨rfl, entry, cluster, hSelects, hFollows⟩
    simp only [fromKubeconfig, (hSelects.endpoint_eq_ok_iff env fs c.endpoint).mpr hFollows,
      (k.contextName_eq_some_iff context c.name).mpr hSelects.asks, Option.getD_some]

/-- A connection by a kubeconfig is named for the context that its endpoint comes from, and without
such a context there is none. Local development is always named for the current context. -/
theorem resolve_reports_context (env : Environment) (fs : FileSystem) {s : ConnectionSource}
    (hReads : s.ReadsKubeconfig) :
    (∀ c, s.resolve env fs = .ok c ↔ c.source = s.name ∧ ∃ k, s.Opens env fs k ∧
      ∃ entry cluster, k.Selects s.asked c.name entry cluster ∧
        c.endpoint.Follows env fs entry cluster) ∧
    (∀ k e, s.Opens env fs k → k.Lacks s.asked e →
      s.resolve env fs = .error (.kubeconfig e)) ∧
    ∀ enabled path c, s = .localDev enabled path → s.resolve env fs = .ok c →
      ∃ k, s.Opens env fs k ∧ k.currentContext = some c.name := by
  have hExact : ∀ c, s.resolve env fs = .ok c ↔ c.source = s.name ∧ ∃ k, s.Opens env fs k ∧
      ∃ entry cluster, k.Selects s.asked c.name entry cluster ∧
        c.endpoint.Follows env fs entry cluster := by
    intro c
    constructor
    · intro hResolved
      obtain ⟨k, hOpens⟩ := exists_opens_of_resolve hReads hResolved
      rw [hOpens.resolve_eq, fromKubeconfig_eq_ok_iff] at hResolved
      exact ⟨hResolved.1, k, hOpens, hResolved.2⟩
    · rintro ⟨hSource, k, hOpens, hSelected⟩
      rw [hOpens.resolve_eq, fromKubeconfig_eq_ok_iff]
      exact ⟨hSource, hSelected⟩
  refine ⟨hExact, ?_, ?_⟩
  · intro k e hOpens hLacks
    rw [hOpens.resolve_eq, fromKubeconfig]
    simp only [hLacks.endpoint_eq env fs]
  · rintro enabled path c rfl hResolved
    obtain ⟨_, k, hOpens, entry, cluster, hSelects, _⟩ := (hExact c).mp hResolved
    cases hSelects.asks with
    | current hCurrent => exact ⟨k, hOpens, hCurrent⟩

/-- A kubeconfig that gives the name of its current context twice, the second time for nothing. -/
def twiceNamed : FileSystem := ⟨[(["/", "k"], .file (.text ("\n".intercalate [
  "current-context: dev",
  "contexts:", "- name: dev", "  context:", "    cluster: lab", "- name: dev",
  "clusters:", "- name: lab", "  cluster:", "    server: lab:6443"])))]⟩

theorem resolve_reports_context_twiceNamed :
    let s : ConnectionSource := .localDev true (some "/k")
    let lab : Uri := ⟨none, "lab:6443", "", none⟩
    let c : Connection := ⟨⟨lab, "default", false, none, none, none⟩, "dev", "local-dev"⟩
    s.ReadsKubeconfig ∧ (s.resolve [] twiceNamed).toOption = some c ∧
      (∃ k, s.Opens [] twiceNamed k ∧ k.currentContext = some "dev") ∧
      ∃ k, s.Opens [] twiceNamed k ∧ ∃ entry cluster, k.Selects none "dev" entry cluster ∧
        c.endpoint.Follows [] twiceNamed entry cluster := by
  intro s lab c
  have hReads : s.ReadsKubeconfig := .localDev true (some "/k")
  have hFound : (s.resolve [] twiceNamed).toOption = some c := by decide +kernel
  have hResolved : s.resolve [] twiceNamed = .ok c := by
    cases hResult : s.resolve [] twiceNamed with
    | error e => rw [hResult] at hFound; cases hFound
    | ok found => rw [hResult] at hFound; exact congrArg Except.ok (Option.some.inj hFound)
  obtain ⟨hExact, -, hCurrent⟩ := resolve_reports_context [] twiceNamed hReads
  exact ⟨hReads, hFound, hCurrent true (some "/k") c rfl hResolved, ((hExact c).mp hResolved).2⟩

end ConnectionSource

end ClusterInventory
