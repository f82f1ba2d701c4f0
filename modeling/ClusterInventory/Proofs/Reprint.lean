import ClusterInventory.Proofs.Isolation
import ClusterInventory.Proofs.Reference

/-! # Printed kinds

What the program prints for a kind can be asked for again: it is mapped as the kind is. The text for
a core kind leaves out a version that the core group prefers anyway.
-/

namespace ClusterInventory

/-! ## The core group -/

namespace Server

variable (server : Server)

theorem preferred_of_discoverCore :
    server.discoverCore.Ensures fun answer =>
      ∀ g, answer = .ok g → g.preferred = some coreVersion := by
  refine (Exchange.ensures_true _).bind fun versions _ => ?_
  split
  · exact Exchange.ensures_pure nofun
  · exact Exchange.ensures_pure nofun
  · refine (Exchange.ensures_true _).bind fun data _ => Exchange.ensures_pure ?_
    cases data with
    | error e => exact nofun
    | ok data =>
      rintro g ⟨⟩
      rfl

end Server

namespace Catalog

/-- The core group, where it was discovered, prefers the version that references leave out. -/
def PrefersCore (c : Catalog) : Prop :=
  ∀ g, Fields.get? "" c.groups = some g → g.preferred = some coreVersion

theorem mapper_elided {c : Catalog} (h : c.PrefersCore) (kind : Kind) :
    c.mapper kind.elided = c.mapper kind := by
  have hFind : ((Fields.get? kind.group c.groups).bind fun g =>
      g.find? kind.elided.version kind.name) =
      (Fields.get? kind.group c.groups).bind fun g => g.find? kind.version kind.name := by
    unfold Kind.elided
    split
    · rename_i hCore
      rw [hCore.1, hCore.2]
      cases hGroup : Fields.get? "" c.groups with
      | none => rfl
      | some g => simp [ApiGroup.find?, ApiGroup.preferredOrLatest, h g hGroup, coreVersion]
    · rfl
  unfold mapper
  rw [kind.group_elided, kind.name_elided, kind.canonical_elided, hFind]

end Catalog

namespace Cluster

theorem prefersCore_of_discover {c : Cluster} {past : List String} {catalog : Catalog}
    (h : (c.discover past).1.value = .ok catalog) : catalog.PrefersCore := by
  rw [c.discover_value_eq] at h
  cases hSurvey : (c.server.survey past).1 with
  | error e =>
    rw [hSurvey] at h
    cases h
  | ok findings =>
    rw [hSurvey] at h
    obtain rfl := Except.ok.inj h
    intro g hGroup
    obtain ⟨earlier, hCore⟩ := Server.found_of_survey past findings hSurvey _
      (Catalog.mem_findings_of_get?_groups hGroup)
    exact c.server.preferred_of_discoverCore earlier g hCore.symm

end Cluster

/-! ## The kinds that a command prints -/

/-- The command prints the discovered kinds that can be listed, one on each line. Such a text, or
that of any kind without a separator in the wrong place, is read as a kind that is mapped to the
same resource, or fails for the same reason. -/
theorem Inventory.mapper_ofText_printed (c : Cluster) {past : List String} {catalog : Catalog}
    (hFound : (c.discover past).1.value = .ok catalog) :
    (printKinds c past).1.stdout =
        String.join (catalog.listableKinds.map fun kind => kind.canonical ++ "\n") ∧
      ∀ kind : Kind, kind.Plain →
        catalog.mapper (KindRef.ofText kind.canonical).toKind = catalog.mapper kind := by
  constructor
  · unfold printKinds Cluster.discoverKinds
    simp only [Exchange.bind_apply, Exchange.pure_apply, hFound, Except.map]
  · intro kind hPlain
    rw [Kind.toKind_ofText_canonical hPlain]
    exact Catalog.mapper_elided (Cluster.prefersCore_of_discover hFound) kind

/-- A core kind is printed without its version, and is found without it. -/
theorem Inventory.mapper_ofText_deployment :
    let kind : Kind := ⟨"", "v1", "Deployment"⟩
    ∃ catalog : Catalog, ((deployments true).discover []).1.value = .ok catalog ∧ kind.Plain ∧
      (KindRef.ofText kind.canonical).toKind = ⟨"", "", "Deployment"⟩ ∧
      (catalog.mapper kind).toBool = true ∧
      catalog.mapper (KindRef.ofText kind.canonical).toKind = catalog.mapper kind := by
  intro kind
  have hPlain : kind.Plain := ⟨by decide, by decide, by decide⟩
  have hFound := Cluster.discover_eq_of_serves (deployments_serve true) []
  exact ⟨_, hFound, hPlain, by decide +kernel, by decide +kernel,
    (mapper_ofText_printed _ hFound).2 kind hPlain⟩

end ClusterInventory
