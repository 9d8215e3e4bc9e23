import OperatorHealth.Document.Basic
import OperatorHealth.Resource.Basic
import OperatorHealth.Time.Timestamp

/-!
# Resources as documents

Each part of a resource is a mapping. Writing leaves out an empty reason, message or namespace and
gives times to the second; reading takes what is left out as empty, and a time that is left out as
unset. Reading ignores keys it does not know. A document of the wrong shape does not convert.

## Main definitions

* `Condition.encode`, `OperandVersion.encode`, `ObjectReference.encode`, `ClusterOperator.encode`:
  the documents.
* `Condition.decode`, `OperandVersion.decode`, `ObjectReference.decode`, `ClusterOperator.decode`:
  what documents stand for.
-/

namespace OperatorHealth

/-! ### Entries of a mapping -/

namespace Document

/-- The entry of a text, left out if the text is empty. -/
def optionalEntry (key text : String) : List (String × Document) :=
  if text = "" then [] else [(key, scalar text)]

/-- Refuses a node that is not a mapping. -/
def requireMapping (d : Document) : Except NodeError Unit :=
  if d.isMapping then .ok () else .error .badConversion

/-- The text of an entry that has to be there. -/
def requiredText (key : String) (d : Document) : Except NodeError String := do
  match ← d.field? key with
  | some v => v.text
  | none => .error .badConversion

/-- The text of an entry, empty if it is not there. -/
def optionalText (key : String) (d : Document) : Except NodeError String := do
  match ← d.field? key with
  | some v => v.text
  | none => .ok ""

/-- The items of an entry, none if it is not there. -/
def optionalList {α : Type} (key : String) (convert : Document → Except NodeError α)
    (d : Document) : Except NodeError (List α) := do
  match ← d.field? key with
  | some v => v.list convert
  | none => .ok []

end Document

open Document

/-- The value, or the error of a node that does not convert. -/
def NodeError.orConversion {α : Type} : Option α → Except NodeError α
  | some a => .ok a
  | none => .error .badConversion

/-! ### Conditions -/

namespace Condition

/-- The document of a condition. -/
def encode (c : Condition) : Document :=
  record
    ([("type", scalar c.kind.text), ("status", scalar c.status.text),
      ("lastTransitionTime", scalar (Timestamp.write c.lastTransition))] ++
      optionalEntry "reason" c.reason ++ optionalEntry "message" c.message)

/-- The time in the entry `lastTransitionTime`, unset if it is not there. -/
def decodeTime (d : Document) : Except NodeError Instant := do
  match ← d.field? "lastTransitionTime" with
  | some v => NodeError.orConversion (Timestamp.read? (← v.text))
  | none => .ok .unset

/-- The condition that a document stands for. -/
def decode (d : Document) : Except NodeError Condition := do
  d.requireMapping
  let kind ← NodeError.orConversion (ConditionKind.ofText? (← d.requiredText "type"))
  let status ← NodeError.orConversion (ConditionStatus.ofText? (← d.requiredText "status"))
  let reason ← d.optionalText "reason"
  let message ← d.optionalText "message"
  let lastTransition ← decodeTime d
  return { kind, status, reason, message, lastTransition }

end Condition

/-! ### Versions and references -/

namespace OperandVersion

/-- The document of a version. -/
def encode (v : OperandVersion) : Document :=
  record [("name", scalar v.name), ("version", scalar v.version)]

/-- The version that a document stands for. -/
def decode (d : Document) : Except NodeError OperandVersion := do
  d.requireMapping
  let name ← d.requiredText "name"
  let version ← d.requiredText "version"
  return { name, version }

end OperandVersion

namespace ObjectReference

/-- The document of a reference. -/
def encode (r : ObjectReference) : Document :=
  record
    ([("group", scalar r.group), ("resource", scalar r.resource)] ++
      optionalEntry "namespace" r.ns ++ [("name", scalar r.name)])

/-- The reference that a document stands for. -/
def decode (d : Document) : Except NodeError ObjectReference := do
  d.requireMapping
  let group ← d.optionalText "group"
  let resource ← d.requiredText "resource"
  let ns ← d.optionalText "namespace"
  let name ← d.requiredText "name"
  return { group, resource, ns, name }

end ObjectReference

/-! ### Resources -/

namespace ResourceStatus

/-- The document of a status. -/
def encode (s : ResourceStatus) : Document :=
  record
    [("conditions", sequence (s.conditions.map Condition.encode)),
     ("versions", sequence (s.versions.map OperandVersion.encode)),
     ("relatedObjects", sequence (s.relatedObjects.map ObjectReference.encode))]

/-- The status that a document stands for. -/
def decode (d : Document) : Except NodeError ResourceStatus := do
  d.requireMapping
  let conditions ← d.optionalList "conditions" Condition.decode
  let versions ← d.optionalList "versions" OperandVersion.decode
  let relatedObjects ← d.optionalList "relatedObjects" ObjectReference.decode
  return { conditions, versions, relatedObjects }

end ResourceStatus

namespace ClusterOperator

/-- The document of a resource. -/
def encode (r : ClusterOperator) : Document :=
  record [("name", scalar r.name), ("status", r.status.encode)]

/-- The resource that a document stands for. A status that is left out is empty. -/
def decode (d : Document) : Except NodeError ClusterOperator := do
  d.requireMapping
  let name ← d.requiredText "name"
  match ← d.field? "status" with
  | some s => return { name, status := ← ResourceStatus.decode s }
  | none => return { name }

end ClusterOperator

end OperatorHealth
