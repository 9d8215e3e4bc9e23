import OperatorHealth.Document.Basic
import OperatorHealth.Resource.Basic
import OperatorHealth.Workload.Name

/-!
# Settings

## Main definitions

* `Settings`: all that can be set.
* `SettingsError`: why a document gives no settings.
-/

namespace OperatorHealth

/-- How much is logged. -/
inductive LogLevel
  | trace
  | debug
  | info
  | warn
  | error
  | off
  deriving DecidableEq, Repr

namespace LogLevel

/-- The levels. -/
def all : List LogLevel := [trace, debug, info, warn, error, off]

/-- The text of a level. -/
def text : LogLevel → String
  | trace => "trace"
  | debug => "debug"
  | info => "info"
  | warn => "warn"
  | error => "error"
  | off => "off"

/-- The level with a text. -/
def ofText? (s : String) : Option LogLevel := all.find? (·.text == s)

end LogLevel

/-- The settings of the program. The interval between two looks at the workloads is in
milliseconds. The workloads are the texts of their names. -/
structure Settings where
  appName : String
  version : String
  operatorName : String
  release : String
  queueCapacity : Nat
  logLevel : LogLevel
  storePath : String
  stateFile : String
  syncInterval : UInt32
  daemonSets : List String
  deployments : List String
  relatedObjects : List ObjectReference
  deriving DecidableEq, Repr

/-- Why a document gives no settings. Fields are named by their paths in the document. -/
inductive SettingsError
  | fileNotFound (path : String)
  | malformedFile (path : String)
  | missingField (field : String)
  | wrongType (field : String)
  | emptyOperatorName
  | noCapacity
  | unknownLogLevel (text : String)
  | shortInterval
  | badWorkload (field : String) (error : NameError)
  /-- A node was used in a way that its kind does not allow. -/
  | node (error : NodeError)
  deriving DecidableEq, Repr

/-- The text of the error. What a document reader says is not repeated. -/
def SettingsError.message (e : SettingsError) : String :=
  terminated <| match e with
    | fileNotFound path => "Config file not found: " ++ path
    | malformedFile path => "Config file " ++ path ++ " is not valid YAML: <yaml>"
    | missingField field => "Missing required config field: " ++ field
    | wrongType field => "Invalid type for config field: " ++ field
    | emptyOperatorName => "Invalid value for config field: cluster_operator.name must not be empty"
    | noCapacity => "Invalid value for config field: publisher.queue_capacity must be >= 1"
    | unknownLogLevel text => "Invalid value for config field: logging.level \"" ++ text ++ "\""
    | shortInterval => "Invalid value for config field: workloads.sync_interval_ms must be >= 100"
    | badWorkload field error => "Invalid value for config field " ++ field ++ ": " ++ error.message
    | node error => error.message

end OperatorHealth
