import OperatorHealth.Workload.Observation

/-!
# Workload states kept in memory

## Main definitions

* `WorkloadTable`: the states of workloads by kind and name.
* `WorkloadTable.inspector`: reading them.
-/

namespace OperatorHealth

/-- The states of workloads by name. -/
structure WorkloadTable where
  daemonSets : List (WorkloadName × ObservedDaemonSet) := []
  deployments : List (WorkloadName × ObservedDeployment) := []

namespace WorkloadTable

/-- The states without that of a name. -/
def erase {α : Type} (id : WorkloadName) (states : List (WorkloadName × α)) :
    List (WorkloadName × α) :=
  states.filter (·.1 != id)

/-- The state of a name. -/
def find? {α : Type} (id : WorkloadName) (states : List (WorkloadName × α)) : Option α :=
  (states.find? (·.1 == id)).map Prod.snd

/-- The table with the state of a daemon set. -/
def withDaemonSet (t : WorkloadTable) (id : WorkloadName) (state : ObservedDaemonSet) :
    WorkloadTable :=
  { t with daemonSets := (id, state) :: erase id t.daemonSets }

/-- The table with the state of a deployment. -/
def withDeployment (t : WorkloadTable) (id : WorkloadName) (state : ObservedDeployment) :
    WorkloadTable :=
  { t with deployments := (id, state) :: erase id t.deployments }

/-- The table without a workload. -/
def remove (t : WorkloadTable) (kind : WorkloadKind) (id : WorkloadName) : WorkloadTable :=
  match kind with
  | .daemonSet => { t with daemonSets := erase id t.daemonSets }
  | .deployment => { t with deployments := erase id t.deployments }

/-- Reading the table. -/
def inspector (t : WorkloadTable) : Inspector where
  daemonSet id :=
    match find? id t.daemonSets with
    | some state => .ok state
    | none => .error (.unknown .daemonSet id)
  deployment id :=
    match find? id t.deployments with
    | some state => .ok state
    | none => .error (.unknown .deployment id)

end WorkloadTable

end OperatorHealth
