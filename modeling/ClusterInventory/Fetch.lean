import ClusterInventory.Log
import ClusterInventory.Outcome
import ClusterInventory.Server

/-! # Fetching

A fetch pass first schedules the resources of the requested kinds, each resource once, and then
lists them in that order. Errors never end the pass; they become outcomes.
-/

namespace ClusterInventory

/-- A lister answers for a resource, in the light of the resources it was asked for before. -/
abbrev Lister := List Resource → Resource → Except RequestError (List Object)

/-! ## Scheduling -/

/-- The resource to list for a kind, or the first reason not to, given what is scheduled. -/
def Mapper.resolve (mapper : Mapper) (filter : Filter) (scheduled : List Resource) (kind : Kind) :
    Except SkipReason Resource :=
  match filter.checkKind kind.name with
  | .error rejection => .error (.rejected rejection)
  | .ok () =>
      match mapper kind with
      | .error e => .error (.unmapped e)
      | .ok m =>
          if ¬Resource.isEnumerable m.resource.plural then .error .notEnumerable
          else if ¬m.isListable then .error .notListable
          else if m.resource ∈ scheduled then .error .duplicate
          else .ok m.resource

structure Schedule where
  resources : List Resource := []
  skipped : List (Kind × SkipReason) := []
  deriving Repr

namespace Schedule

def add (mapper : Mapper) (filter : Filter) (s : Schedule) (kind : Kind) : Schedule :=
  match mapper.resolve filter s.resources kind with
  | .ok r => { s with resources := s.resources ++ [r] }
  | .error reason => { s with skipped := s.skipped ++ [(kind, reason)] }

def ofKinds (mapper : Mapper) (filter : Filter) (kinds : List Kind) : Schedule :=
  kinds.foldl (add mapper filter) {}

end Schedule

/-! ## Listing -/

structure Listing where
  resource : Resource
  answer : Except RequestError (List Object)

namespace Listing

def kept (filter : Filter) (l : Listing) : List Object :=
  match l.answer with
  | .ok objects =>
      (objects.map (Object.normalize l.resource)).filter fun o =>
        filter.allowsNamespace o.namespaceName
  | .error _ => []

def outcome (filter : Filter) (l : Listing) : Outcome :=
  match l.answer with
  | .ok objects => .listed l.resource objects.length (l.kept filter).length
  | .error e => .failed l.resource e.message

/-- Lists resources one after another. -/
def run (lister : Lister) (earlier : List Resource) : List Resource → List Listing
  | [] => []
  | r :: rest => ⟨r, lister earlier r⟩ :: run lister (earlier ++ [r]) rest

end Listing

/-! ## The pass -/

structure Pass where
  skipped : List (Kind × SkipReason)
  listings : List Listing

namespace Pass

def run (mapper : Mapper) (lister : Lister) (kinds : List Kind) (filter : Filter) : Pass :=
  let schedule := Schedule.ofKinds mapper filter kinds
  ⟨schedule.skipped, Listing.run lister [] schedule.resources⟩

def calls (p : Pass) : List Resource := p.listings.map Listing.resource

def report (filter : Filter) (p : Pass) : Report where
  objects := p.listings.flatMap (Listing.kept filter)
  outcomes := p.skipped.map (fun (kind, reason) => .skipped kind reason) ++
    p.listings.map (Listing.outcome filter)

end Pass

def fetchObjects (mapper : Mapper) (lister : Lister) (kinds : List Kind) (filter : Filter) :
    Report :=
  (Pass.run mapper lister kinds filter).report filter

/-! ## Log -/

def skipRecord? : Kind × SkipReason → Option Record
  | (kind, .unmapped e) =>
      some (Component.fetching.record .debug ("Skipping kind " ++ kind.name ++ ": " ++ e.message))
  | _ => none

def Listing.record (filter : Filter) (l : Listing) : Record :=
  match l.answer with
  | .ok objects =>
      Component.fetching.record .debug ("Listed " ++ toString objects.length ++ " " ++
        l.resource.plural ++ " objects, " ++ toString (l.kept filter).length ++ " kept")
  | .error e =>
      Component.fetching.record .warn ("Cannot list " ++ l.resource.plural ++ " (" ++
        l.resource.apiVersion ++ "): " ++ e.message)

def Pass.log (filter : Filter) (p : Pass) : List Record :=
  p.skipped.filterMap skipRecord? ++ p.listings.map (Listing.record filter)

end ClusterInventory
