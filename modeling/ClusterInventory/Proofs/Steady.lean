import ClusterInventory.Proofs.Survey

/-! # Steady servers

A steady server answers a path alike at all times. Whatever it was asked for before, a discovery
finds the same and a resource is listed alike, so that requests in between change nothing.
-/

namespace ClusterInventory

def Server.Steady (server : Server) : Prop :=
  ∀ past other path, server.answer past path = server.answer other path

def Exchange.Steady {α : Type} (x : Exchange α) : Prop := ∃ a, x.Yields a

namespace Exchange

variable {α β : Type}

theorem steady_pure (a : α) : (pure a : Exchange α).Steady := ⟨a, yields_pure a⟩

theorem Steady.bind {x : Exchange α} {next : α → Exchange β} (hFirst : x.Steady)
    (hNext : ∀ a, (next a).Steady) : Exchange.Steady (x >>= next) := by
  obtain ⟨a, hValue⟩ := hFirst
  obtain ⟨b, hResult⟩ := hNext a
  exact ⟨b, hValue.bind hResult⟩

theorem Steady.value_eq {x : Exchange α} (h : x.Steady) (past other : List String) :
    (x past).1 = (x other).1 := by
  obtain ⟨a, hValue⟩ := h
  rw [hValue past, hValue other]

theorem Steady.yields {x : Exchange α} (h : x.Steady) (past : List String) :
    x.Yields (x past).1 :=
  fun other => h.value_eq other past

end Exchange

namespace Server

variable {server : Server} (h : server.Steady)

include h

theorem steady_send (path : List Char) (query : Option (List Char)) :
    (server.send path query).Steady :=
  ⟨_, fun past => h past [] _⟩

theorem steady_get {α : Type} (onBadPath : RequestError) (read : Json → Option α) (text : String) :
    (server.get onBadPath read text).Steady := by
  unfold get
  split
  · exact Exchange.steady_pure _
  · refine (steady_send h _ _).bind fun answer => ?_
    split
    · exact Exchange.steady_pure _
    · split <;> exact Exchange.steady_pure _

theorem steady_readVersions (versions : List (String × String)) :
    (server.readVersions versions).Steady := by
  induction versions with
  | nil => exact Exchange.steady_pure _
  | cons version rest ih =>
    refine (steady_get h _ _ _).bind fun list => ?_
    split
    · exact Exchange.steady_pure _
    · refine ih.bind fun data => ?_
      split <;> exact Exchange.steady_pure _

theorem steady_discoverGroup (name : String) : (server.discoverGroup name).Steady := by
  unfold discoverGroup
  split
  · refine (steady_get h _ _ _).bind fun versions => ?_
    split
    · exact Exchange.steady_pure _
    · exact Exchange.steady_pure _
    · exact (steady_readVersions h _).bind fun data => Exchange.steady_pure _
  · refine (steady_get h _ _ _).bind fun groups => ?_
    split
    · exact Exchange.steady_pure _
    · split
      · exact Exchange.steady_pure _
      · split
        · exact Exchange.steady_pure _
        · exact (steady_readVersions h _).bind fun data => Exchange.steady_pure _

theorem steady_discoverGroups (names : List String) : (server.discoverGroups names).Steady := by
  induction names with
  | nil => exact Exchange.steady_pure _
  | cons name rest ih =>
    exact (steady_discoverGroup h name).bind fun finding =>
      ih.bind fun findings => Exchange.steady_pure _

theorem steady_survey : server.survey.Steady := by
  refine (steady_get h _ _ _).bind fun groups => ?_
  split
  · exact Exchange.steady_pure _
  · exact (steady_discoverGroups h _).bind fun findings => Exchange.steady_pure _

end Server

namespace Cluster

variable {c : Cluster} (h : c.server.Steady)

include h

theorem steady_discover : c.discover.Steady := by
  refine (Server.steady_survey h).bind fun found => ?_
  split <;> exact Exchange.steady_pure _

/-- Each resource is answered by itself, at any time. -/
theorem lister_eq_of_steady (past other : List String) : c.lister past = c.lister other := by
  funext earlier r
  exact (Server.steady_get h _ _ _).value_eq _ _

end Cluster

end ClusterInventory
