import ClusterInventory.Filter
import ClusterInventory.KindRef
import ClusterInventory.Object
import ClusterInventory.Resource

/-! # Outcomes

A fetch pass ends with one outcome per requested kind. A kind is skipped for a reason before any
list call; a resource is listed, or its list call fails.
-/

namespace ClusterInventory

inductive MappingError where
  | notFound (kind : String)
  | discoveryUnavailable (error : String)
  deriving DecidableEq, Repr

def MappingError.message : MappingError → String
  | notFound kind => "no resource found for kind '" ++ kind ++ "'"
  | discoveryUnavailable error => "discovery unavailable: " ++ error

abbrev Mapper := Kind → Except MappingError Mapping

def Mapper.unavailable (reason : String) : Mapper := fun _ => .error (.discoveryUnavailable reason)

inductive SkipReason where
  | rejected (rejection : Filter.Rejection)
  | unmapped (error : MappingError)
  | notEnumerable
  | notListable
  | duplicate
  deriving DecidableEq, Repr

def Filter.Rejection.message : Filter.Rejection → String
  | ignored => "kind is ignored"
  | notSelected => "kind is not selected"

def SkipReason.message : SkipReason → String
  | rejected rejection => rejection.message
  | unmapped error => error.message
  | notEnumerable => "resource is not an object collection"
  | notListable => "resource does not support list"
  | duplicate => "resource already requested"

inductive Outcome where
  | listed (resource : Resource) (listed kept : Nat)
  | skipped (kind : Kind) (reason : SkipReason)
  | failed (resource : Resource) (error : String)
  deriving DecidableEq, Repr

namespace Outcome

def isListed : Outcome → Bool
  | listed .. => true
  | _ => false

def isSkipped : Outcome → Bool
  | skipped .. => true
  | _ => false

def isFailed : Outcome → Bool
  | failed .. => true
  | _ => false

def isAttempted (o : Outcome) : Bool := o.isListed || o.isFailed

def isUnavailable : Outcome → Bool
  | skipped _ (.unmapped (.discoveryUnavailable _)) => true
  | _ => false

end Outcome

structure Report where
  objects : List Object := []
  outcomes : List Outcome := []
  deriving Inhabited

namespace Report

def listedCount (r : Report) : Nat := r.outcomes.countP Outcome.isListed

def skippedCount (r : Report) : Nat := r.outcomes.countP Outcome.isSkipped

def failedCount (r : Report) : Nat := r.outcomes.countP Outcome.isFailed

/-- Nothing was collected because of errors: every list call failed, or none was made and some
kind was skipped because discovery was unavailable. -/
def isTotalFailure (r : Report) : Bool :=
  let attempted := r.outcomes.countP Outcome.isAttempted
  if 0 < attempted then r.failedCount == attempted
  else r.outcomes.any Outcome.isUnavailable

end Report

end ClusterInventory
