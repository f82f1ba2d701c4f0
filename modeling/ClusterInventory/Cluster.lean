import ClusterInventory.Discovery

/-! # Clusters

A cluster is a named server. Its operations are exchanges with the server that also write a log.
-/

namespace ClusterInventory

structure Cluster where
  name : String
  server : Server

/-- A result together with the log records on the way to it. -/
structure Logged (α : Type) where
  value : α
  log : List Record

namespace Cluster

def serverVersion (c : Cluster) : Exchange (Except RequestError String) := do
  let answer ← c.server.get .badPath ServerVersion.ofJson? "/version"
  return answer.map ServerVersion.format

def discover (c : Cluster) : Exchange (Logged (Except RequestError Catalog)) := do
  match ← c.server.survey with
  | .error e => return ⟨.error e, []⟩
  | .ok findings => return ⟨.ok (Catalog.ofFindings findings), findings.map findingRecord⟩

def discoverKinds (c : Cluster) : Exchange (Logged (Except RequestError (List Kind))) := do
  let found ← c.discover
  return ⟨found.value.map Catalog.listableKinds, found.log⟩

def lister (c : Cluster) (past : List String) : Lister := fun earlier r =>
  (c.server.list r (past ++ earlier.filterMap c.server.listRequest?)).1

def fetchObjectsWith (c : Cluster) (mapper : Mapper) (kinds : List Kind) (filter : Filter) :
    Exchange (Logged Report) := fun past =>
  let pass := Pass.run mapper (c.lister past) kinds filter
  (⟨pass.report filter, pass.log filter⟩,
    past ++ pass.calls.filterMap c.server.listRequest?)

/-- Fetches with a catalog made for the purpose; without one every kind is skipped. -/
def fetchObjects (c : Cluster) (kinds : List Kind) (filter : Filter) :
    Exchange (Logged Report) := do
  let found ← c.discover
  match found.value with
  | .ok catalog =>
      let fetched ← c.fetchObjectsWith catalog.mapper kinds filter
      return ⟨fetched.value, found.log ++ fetched.log⟩
  | .error e =>
      let warning := Component.clusters.record .warn
        ("Discovery error for cluster '" ++ c.name ++ "': " ++ e.message)
      let fetched ← c.fetchObjectsWith (Mapper.unavailable e.message) kinds filter
      return ⟨fetched.value, warning :: fetched.log⟩

end Cluster

end ClusterInventory
