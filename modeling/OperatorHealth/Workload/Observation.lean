import OperatorHealth.Workload.Annotations
import OperatorHealth.Workload.Name

/-!
# Observed states of workloads

A workload is a daemon set, which wants a pod on every node, or a deployment, which wants a number
of replicas. Its observed state says which generation of its definition the cluster has seen and
how many pods are in which condition.

## Main definitions

* `WorkloadKind`: the two kinds of workload.
* `ObservedDaemonSet`, `ObservedDeployment`: the observed states.
* `FetchError`, `Inspector`: reading the state of a workload.
-/

namespace OperatorHealth

/-- The kind of a workload. -/
inductive WorkloadKind
  | daemonSet
  | deployment
  deriving DecidableEq, Repr

namespace WorkloadKind

/-- The kinds in the order of their codes. -/
def all : List WorkloadKind := [daemonSet, deployment]

/-- The text of a kind. -/
def text : WorkloadKind → String
  | daemonSet => "DaemonSet"
  | deployment => "Deployment"

/-- The text of a kind in lower case. -/
def lowerText : WorkloadKind → String
  | daemonSet => "daemonset"
  | deployment => "deployment"

/-- The code of a kind. -/
def code : WorkloadKind → UInt8
  | daemonSet => 0
  | deployment => 1

/-- The text for a code, `Workload` if no kind has it. -/
def describe (n : UInt8) : String := ((all.find? (·.code == n)).map text).getD "Workload"

end WorkloadKind

/-! ### States -/

/-- The observed state of a daemon set. -/
structure ObservedDaemonSet where
  generation : Int64 := 0
  observedGeneration : Int64 := 0
  desired : Int32 := 0
  updated : Int32 := 0
  available : Int32 := 0
  unavailable : Int32 := 0
  annotations : Annotations := .empty
  deriving DecidableEq

/-- The observed state of a deployment. -/
structure ObservedDeployment where
  generation : Int64 := 0
  observedGeneration : Int64 := 0
  replicas : Int32 := 0
  updated : Int32 := 0
  available : Int32 := 0
  unavailable : Int32 := 0
  annotations : Annotations := .empty
  deriving DecidableEq

/-! ### Reading states -/

/-- Why the state of a workload cannot be read. -/
inductive FetchError
  /-- No state of the workload is kept. -/
  | unknown (kind : WorkloadKind) (id : WorkloadName)
  /-- The snapshot cannot be read. -/
  | unreadableSnapshot (path : String)
  /-- The snapshot has no sections. -/
  | malformedSnapshot (path : String)
  /-- The snapshot has no entry for the workload. -/
  | missingEntry (kind : WorkloadKind) (id : WorkloadName)
  /-- The entry of the workload does not convert. -/
  | malformedEntry (kind : WorkloadKind) (id : WorkloadName)
  deriving DecidableEq, Repr

/-- The text of the error. What a document reader says is not repeated. -/
def FetchError.message (e : FetchError) : String :=
  terminated <| match e with
    | unknown kind id => kind.lowerText ++ " \"" ++ id.text ++ "\" not found"
    | unreadableSnapshot path => "failed to read workload snapshot " ++ path ++ ": <yaml>"
    | malformedSnapshot path => "malformed workload snapshot " ++ path ++ ": <yaml>"
    | missingEntry kind id => kind.text ++ " \"" ++ id.text ++ "\" not found"
    | malformedEntry kind id => "malformed " ++ kind.text ++ " \"" ++ id.text ++ "\": <yaml>"

/-- A way to read the states of workloads. -/
structure Inspector where
  daemonSet : WorkloadName → Except FetchError ObservedDaemonSet
  deployment : WorkloadName → Except FetchError ObservedDeployment

end OperatorHealth
