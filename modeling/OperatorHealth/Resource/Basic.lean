import OperatorHealth.Condition.Basic

/-!
# The resource that reports on an operator

The published resource bears the name of the operator and a status: its conditions, the versions
it has reached, and references to objects worth a look when something is wrong.

## Main definitions

* `OperandVersion`, `ObjectReference`, `ResourceStatus`: the parts of a status.
* `ClusterOperator`: the resource.
* `StatusReport`: what a producer wants the resource to say.
-/

namespace OperatorHealth

/-- The version that a part of the operator has reached. -/
structure OperandVersion where
  name : String
  version : String
  deriving DecidableEq, Repr

/-- A reference to another object. -/
structure ObjectReference where
  group : String
  resource : String
  ns : String
  name : String
  deriving DecidableEq, Repr

namespace ObjectReference

/-- The fields of a reference in the order that sorts references. -/
def key (r : ObjectReference) : List String := [r.group, r.resource, r.ns, r.name]

instance : LT ObjectReference := ⟨fun a b => a.key < b.key⟩

instance (a b : ObjectReference) : Decidable (a < b) :=
  inferInstanceAs (Decidable (a.key < b.key))

end ObjectReference

/-- The status of a resource. -/
structure ResourceStatus where
  conditions : List Condition := []
  versions : List OperandVersion := []
  relatedObjects : List ObjectReference := []
  deriving DecidableEq, Repr

/-- The resource that reports on an operator. -/
structure ClusterOperator where
  name : String
  status : ResourceStatus := {}
  deriving DecidableEq, Repr

/-- A status to publish: conditions to merge into the resource, and whether the operator has
reached its release, so that the version may be published. -/
structure StatusReport where
  conditions : List Condition
  reachedRelease : Bool
  deriving DecidableEq, Repr

end OperatorHealth
