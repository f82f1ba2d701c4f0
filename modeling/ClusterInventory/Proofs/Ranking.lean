import ClusterInventory.Proofs.Catalog
import ClusterInventory.Proofs.Survey

/-! # Ranked versions

Versions are ranked by stage, then by their numbers, and unranked ones by their text; any two can be
compared. A discovery leaves a group with one version at least and with its versions by rank, so
that the first of them is one of the highest.
-/

namespace ClusterInventory

/-! ## The rank of a version -/

namespace Version

def label : Version → String
  | other text => text
  | _ => ""

theorem before_iff (a b : Version) : a.before b = true ↔
    b.stage < a.stage ∨ (a.stage = b.stage ∧
      (b.numbers.1 < a.numbers.1 ∨ (a.numbers.1 = b.numbers.1 ∧
        (b.numbers.2 < a.numbers.2 ∨ (a.numbers.2 = b.numbers.2 ∧ a.label ≤ b.label))))) := by
  cases a <;> cases b <;> grind [before, stage, numbers, label, String.le_refl]

theorem before_total (a b : Version) : a.before b = true ∨ b.before a = true := by
  have hText := String.le_total a.label b.label
  rw [before_iff, before_iff]
  grind

theorem before_trans {a b c : Version} (h : a.before b = true) (hNext : b.before c = true) :
    a.before c = true := by
  have hText : a.label ≤ b.label → b.label ≤ c.label → a.label ≤ c.label := String.le_trans
  rw [before_iff] at *
  grind

example : (ofText "v1").before (ofText "v2beta1") = true := by decide

end Version

namespace ApiGroup

structure Ranked (g : ApiGroup) : Prop where
  nonempty : g.versions ≠ []
  order : g.versions.Pairwise fun v other =>
    (Version.ofText v.version).before (Version.ofText other.version) = true

theorem ranked_ofVersions {versions : List VersionData} (h : versions ≠ [])
    (preferred : Option String) : (ofVersions versions preferred).Ranked where
  nonempty := by
    intro hNone
    have hLength := congrArg List.length hNone
    rw [ofVersions, List.length_mergeSort] at hLength
    exact h (List.length_eq_zero_iff.mp hLength)
  order := by
    refine List.pairwise_mergeSort ?_ ?_ versions
    · intro v other last
      exact Version.before_trans
    · intro v other
      rw [Bool.or_eq_true]
      exact Version.before_total _ _

/-- The version that the text in a kind asks for: the one of this name, or if it is empty the
preferred one, or the highest where none is preferred. -/
inductive Asks (g : ApiGroup) : String → String → Prop where
  | named {version : String} (hNamed : version ≠ "") : g.Asks version version
  | preferred {version : String} (hPreferred : g.preferred = some version) : g.Asks "" version
  | highest {v : VersionData} {rest : List VersionData} (hNone : g.preferred = none)
      (hServed : g.versions = v :: rest)
      (hHighest : ∀ other ∈ rest,
        (Version.ofText v.version).before (Version.ofText other.version) = true) :
      g.Asks "" v.version

theorem Ranked.asks_iff {g : ApiGroup} (h : g.Ranked) (text version : String) :
    g.Asks text version ↔ g.versionOf text = version := by
  constructor
  · intro hAsks
    cases hAsks with
    | named hNamed => exact if_neg hNamed
    | preferred hPreferred => simp [versionOf, preferredOrLatest, hPreferred]
    | highest hNone hServed _ => simp [versionOf, preferredOrLatest, hNone, hServed]
  · rintro rfl
    by_cases hText : text = ""
    · subst hText
      obtain ⟨v, rest, hServed⟩ := List.exists_cons_of_ne_nil h.nonempty
      have hOrder := h.order
      rw [hServed, List.pairwise_cons] at hOrder
      cases hPreferred : g.preferred with
      | none =>
        have hVersion : g.versionOf "" = v.version := by
          simp [versionOf, preferredOrLatest, hPreferred, hServed]
        rw [hVersion]
        exact .highest hPreferred hServed hOrder.1
      | some preferred =>
        have hVersion : g.versionOf "" = preferred := by
          simp [versionOf, preferredOrLatest, hPreferred]
        rw [hVersion]
        exact .preferred hPreferred
    · rw [versionOf, if_neg hText]
      exact .named hText

end ApiGroup

/-! ## What a discovery leaves -/

namespace Server

variable (server : Server)

/-- A group is read with all its versions or not at all. -/
theorem readVersions_ensures (versions : List (String × String)) :
    (server.readVersions versions).Ensures fun answer =>
      ∀ data, answer = .ok data → data.map VersionData.version = versions.map Prod.fst := by
  induction versions with
  | nil =>
    refine Exchange.ensures_pure ?_
    rintro data ⟨⟩
    rfl
  | cons v rest ih =>
    refine (Exchange.ensures_true _).bind fun list _ => ?_
    split
    · exact Exchange.ensures_pure nofun
    · refine ih.bind fun data hData => ?_
      split
      · exact Exchange.ensures_pure nofun
      · rename_i found
        refine Exchange.ensures_pure ?_
        rintro all ⟨⟩
        exact congrArg (v.1 :: ·) (hData found rfl)

theorem ranked_of_readVersions {versions : List (String × String)} (h : versions ≠ [])
    (preferred : Option String) :
    Exchange.Ensures
      (server.readVersions versions >>= fun data =>
        pure (data.map fun d => ApiGroup.ofVersions d preferred))
      fun answer => ∀ g, answer = .ok g → g.Ranked := by
  refine (server.readVersions_ensures versions).bind fun answer hData => Exchange.ensures_pure ?_
  cases answer with
  | error e => exact nofun
  | ok data =>
    rintro g ⟨⟩
    refine ApiGroup.ranked_ofVersions ?_ preferred
    rintro rfl
    exact h (List.map_eq_nil_iff.mp (hData [] rfl).symm)

theorem ranked_of_discoverGroup (name : String) :
    (server.discoverGroup name).Ensures fun answer => ∀ g, answer = .ok g → g.Ranked := by
  unfold discoverGroup
  split
  · refine (Exchange.ensures_true _).bind fun versions _ => ?_
    split
    · exact Exchange.ensures_pure nofun
    · exact Exchange.ensures_pure nofun
    · rename_i versions hSome
      refine server.ranked_of_readVersions ?_ _
      intro hNone
      rw [List.map_eq_nil_iff] at hNone
      subst hNone
      exact hSome rfl
  · refine (Exchange.ensures_true _).bind fun groups _ => ?_
    split
    · exact Exchange.ensures_pure nofun
    · split
      · exact Exchange.ensures_pure nofun
      · rename_i g _
        split
        · exact Exchange.ensures_pure nofun
        · rename_i hSome
          refine server.ranked_of_readVersions ?_ _
          intro hNone
          rw [List.map_eq_nil_iff] at hNone
          exact hSome (List.isEmpty_iff.mpr hNone)

end Server

end ClusterInventory
