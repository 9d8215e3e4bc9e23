import OperatorHealth.Files.Load
import OperatorHealth.Settings.Basic

/-!
# Loading settings

Settings come from a document with one section for each part of the program. They are read in the
order of the sections, and the first thing wrong is reported. A value of the environment takes the
place of the release.

## Main definitions

* `Settings.ofDocument`: the settings in a document.
* `Settings.load`: the settings in a file.
-/

namespace OperatorHealth.Settings

/-! ### Fields -/

/-- A field of a node, if it is there. -/
def field? (key : String) (node : Document) : Except SettingsError (Option Document) :=
  (node.field? key).mapError .node

/-- A field that has to be there and to stand for something. -/
def required (key field : String) (node : Document) : Except SettingsError Document := do
  match ← field? key node with
  | some d => if d.isNull then .error (.missingField field) else .ok d
  | none => .error (.missingField field)

/-- A node converted. -/
def convert {α : Type} (field : String) (conversion : Document → Except NodeError α)
    (node : Document) : Except SettingsError α :=
  match conversion node with
  | .ok a => .ok a
  | .error .badConversion => .error (.wrongType field)
  | .error e => .error (.node e)

/-- The text of a field that has to be there. -/
def requiredText (key field : String) (node : Document) : Except SettingsError String := do
  convert field Document.text (← required key field node)

/-- The text of a field, or a default if it is not there. -/
def textOr (default key field : String) (node : Document) : Except SettingsError String := do
  match ← field? key node with
  | some d => convert field Document.text d
  | none => .ok default

/-! ### Sections -/

/-- The name of the operator and its release. -/
def readOperator (root : Document) : Except SettingsError (String × String) := do
  let node ← required "cluster_operator" "cluster_operator" root
  let name ← requiredText "name" "cluster_operator.name" node
  if name = "" then .error .emptyOperatorName
  let release ← textOr "" "release_version" "cluster_operator.release_version" node
  return (name, release)

/-- The capacity of the queue, `5` if it is not given. -/
def readCapacity (root : Document) : Except SettingsError Nat := do
  match ← field? "publisher" root with
  | none => return 5
  | some node =>
    match ← field? "queue_capacity" node with
    | none => return 5
    | some d =>
      let n ← convert "publisher.queue_capacity" Document.int64 d
      if n < 1 then .error .noCapacity else return n.toInt.toNat

/-- The log level, `info` if it is not given. -/
def readLogLevel (root : Document) : Except SettingsError LogLevel := do
  match ← field? "logging" root with
  | none => return .info
  | some node =>
    match ← field? "level" node with
    | none => return .info
    | some d =>
      let text ← convert "logging.level" Document.text d
      match LogLevel.ofText? text with
      | some level => return level
      | none => .error (.unknownLogLevel text)

/-- The directory of the store. -/
def readStorePath (root : Document) : Except SettingsError String := do
  requiredText "path" "store.path" (← required "store" "store" root)

/-- The interval between two looks at the workloads, `2000` if it is not given, kept in 32 bits. -/
def readInterval (node : Document) : Except SettingsError UInt32 := do
  match ← field? "sync_interval_ms" node with
  | none => return 2000
  | some d =>
    let n ← convert "workloads.sync_interval_ms" Document.int64 d
    if n < 100 then .error .shortInterval else return n.toUInt64.toUInt32

/-- A list of the texts of names of workloads, empty if it is not given. -/
def readNames (key field : String) (node : Document) : Except SettingsError (List String) := do
  match ← field? key node with
  | none => return []
  | some d =>
    let texts ← convert field (Document.list Document.text) d
    let _ ← (WorkloadName.parseAll? texts).mapError (.badWorkload field)
    return texts

/-- One of the related objects. -/
def readReference (field : String) (node : Document) : Except SettingsError ObjectReference := do
  let group ← textOr "" "group" (field ++ ".group") node
  let resource ← requiredText "resource" (field ++ ".resource") node
  let ns ← textOr "" "namespace" (field ++ ".namespace") node
  let name ← requiredText "name" (field ++ ".name") node
  return { group, resource, ns, name }

/-- Related objects from the one with number `i` on. -/
def readReferencesFrom (i : Nat) : List Document → Except SettingsError (List ObjectReference)
  | [] => .ok []
  | d :: ds => do
    let r ← readReference s!"related_objects[{i}]" d
    let rs ← readReferencesFrom (i + 1) ds
    return r :: rs

/-- The related objects, none if they are not given. -/
def readReferences (root : Document) : Except SettingsError (List ObjectReference) := do
  match ← field? "related_objects" root with
  | none => return []
  | some (.sequence items) => readReferencesFrom 0 items
  | some _ => .error (.wrongType "related_objects")

/-! ### Documents and files -/

/-- The settings in a document, where `release` takes the place of the release if it is given. -/
def ofDocument (release : Option String) (root : Document) : Except SettingsError Settings := do
  let appName ← textOr "OperatorStatusCore" "app_name" "app_name" root
  let version ← textOr "1.0.0" "version" "version" root
  let (operatorName, writtenRelease) ← readOperator root
  let queueCapacity ← readCapacity root
  let logLevel ← readLogLevel root
  let storePath ← readStorePath root
  let workloads ← required "workloads" "workloads" root
  let stateFile ← requiredText "state_file" "workloads.state_file" workloads
  let syncInterval ← readInterval workloads
  let daemonSets ← readNames "daemonsets" "workloads.daemonsets" workloads
  let deployments ← readNames "deployments" "workloads.deployments" workloads
  let relatedObjects ← readReferences root
  return {
    appName, version, operatorName, release := release.getD writtenRelease, queueCapacity,
    logLevel, storePath, stateFile, syncInterval, daemonSets, deployments, relatedObjects }

/-- The settings in the file at the end of a path. -/
def load [DocumentFormat] (release : Option String) (tree : FileTree) (path : String) :
    Except SettingsError Settings :=
  match tree.load? path with
  | .error .cannotOpen => .error (.fileNotFound path)
  | .error .malformed => .error (.malformedFile path)
  | .ok root => ofDocument release root

end OperatorHealth.Settings
