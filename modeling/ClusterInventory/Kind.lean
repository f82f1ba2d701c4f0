/-! # Kinds

A kind names a type of cluster object by API group, version and name. An empty version stands for
the preferred version of the group, and the empty group is the core group.
-/

namespace ClusterInventory

structure Kind where
  group : String
  version : String
  name : String
  deriving DecidableEq, Repr, Inhabited

/-- The version of the core group that references leave out. -/
def coreVersion : String := "v1"

end ClusterInventory
