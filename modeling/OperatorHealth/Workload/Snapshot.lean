import OperatorHealth.Files.Load
import OperatorHealth.Workload.Observation

/-!
# Workload states in a snapshot file

A snapshot is a document with a section for daemon sets and one for deployments, each a sequence of
entries. The entry of a workload is the first mapping whose `name` is the text of its name; a
number it leaves out is zero. The file is read anew for every workload.

## Main definitions

* `Snapshot.inspector`: reading the snapshot in a file.
* `Snapshot.findEntry`: the entry of a workload.
-/

namespace OperatorHealth.Snapshot

/-- The key of the section of a kind. -/
def sectionKey (kind : WorkloadKind) : String :=
  match kind with
  | .daemonSet => "daemonsets"
  | .deployment => "deployments"

/-- Whether an item of a section is the entry of a name. -/
def isEntryOf (name : String) : Document → Bool
  | .mapping es =>
    match Document.findEntry "name" es with
    | some (.scalar s) => s == name
    | _ => false
  | _ => false

/-- The entry of a workload in the snapshot at the end of a path. -/
def findEntry [DocumentFormat] (tree : FileTree) (path : String) (kind : WorkloadKind)
    (id : WorkloadName) : Except FetchError Document :=
  match tree.load? path with
  | .error _ => .error (.unreadableSnapshot path)
  | .ok root =>
    match root.field? (sectionKey kind) with
    | .error _ => .error (.malformedSnapshot path)
    | .ok (some (.sequence items)) =>
      match items.find? (isEntryOf id.text) with
      | some entry => .ok entry
      | none => .error (.missingEntry kind id)
    | .ok _ => .error (.missingEntry kind id)

/-! ### Entries -/

/-- A field of an entry, or its default if it is not there. -/
def fieldOr {α : Type} (default : α) (convert : Document → Except NodeError α) (key : String)
    (entry : Document) : Except NodeError α := do
  match ← entry.field? key with
  | some v => convert v
  | none => .ok default

/-- The labels of an entry. -/
def annotations (entry : Document) : Except NodeError Annotations :=
  fieldOr .empty (fun d => d.textMap.map Annotations.ofList) "annotations" entry

/-- The state in the entry of a daemon set. -/
def readDaemonSet (entry : Document) : Except NodeError ObservedDaemonSet := do
  let generation ← fieldOr 0 Document.int64 "generation" entry
  let observedGeneration ← fieldOr 0 Document.int64 "observed_generation" entry
  let desired ← fieldOr 0 Document.int32 "desired" entry
  let updated ← fieldOr 0 Document.int32 "updated" entry
  let available ← fieldOr 0 Document.int32 "available" entry
  let unavailable ← fieldOr 0 Document.int32 "unavailable" entry
  let annotations ← annotations entry
  return { generation, observedGeneration, desired, updated, available, unavailable, annotations }

/-- The state in the entry of a deployment. -/
def readDeployment (entry : Document) : Except NodeError ObservedDeployment := do
  let generation ← fieldOr 0 Document.int64 "generation" entry
  let observedGeneration ← fieldOr 0 Document.int64 "observed_generation" entry
  let replicas ← fieldOr 0 Document.int32 "replicas" entry
  let updated ← fieldOr 0 Document.int32 "updated_replicas" entry
  let available ← fieldOr 0 Document.int32 "available_replicas" entry
  let unavailable ← fieldOr 0 Document.int32 "unavailable_replicas" entry
  let annotations ← annotations entry
  return { generation, observedGeneration, replicas, updated, available, unavailable, annotations }

/-- The state of a workload, converted from its entry. -/
def fetch [DocumentFormat] {α : Type} (tree : FileTree) (path : String) (kind : WorkloadKind)
    (convert : Document → Except NodeError α) (id : WorkloadName) : Except FetchError α := do
  let entry ← findEntry tree path kind id
  (convert entry).mapError fun _ => .malformedEntry kind id

/-- Reading the snapshot at the end of a path. -/
def inspector [DocumentFormat] (tree : FileTree) (path : String) : Inspector where
  daemonSet := fetch tree path .daemonSet readDaemonSet
  deployment := fetch tree path .deployment readDeployment

end OperatorHealth.Snapshot
