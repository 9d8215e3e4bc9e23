import OperatorHealth.Resource.Basic

/-!
# Structural equality of statuses

Two statuses say the same when they hold the same conditions, by kind, the same versions, by name,
and the same references, however often each occurs. The order in the lists does not matter. The
comparison looks up each condition and each version of the first list in the second, so it is
symmetric for lists without repeated kinds and names.

## Main definitions

* `sameConditions`, `sameVersions`, `sameReferences`: the comparison of each part.
* `ResourceStatus.same`: the comparison of two statuses.
-/

namespace OperatorHealth

/-- Lists of one length, where each condition of the first is the one of its kind in the second. -/
def sameConditions (a b : List Condition) : Bool :=
  a.length == b.length && a.all fun c => findCondition c.kind b == some c

/-- The first version of a name. -/
def findVersion (name : String) (vs : List OperandVersion) : Option OperandVersion :=
  vs.find? (·.name == name)

/-- Lists of one length, where each version of the first is the one of its name in the second. -/
def sameVersions (a b : List OperandVersion) : Bool :=
  a.length == b.length && a.all fun v => findVersion v.name b == some v

/-- The references in order. -/
def sortReferences (rs : List ObjectReference) : List ObjectReference :=
  rs.mergeSort fun a b => !decide (b < a)

/-- Lists that hold each reference equally often. -/
def sameReferences (a b : List ObjectReference) : Bool := sortReferences a == sortReferences b

/-- Whether two statuses say the same. -/
def ResourceStatus.same (a b : ResourceStatus) : Bool :=
  sameConditions a.conditions b.conditions && sameVersions a.versions b.versions &&
    sameReferences a.relatedObjects b.relatedObjects

end OperatorHealth
