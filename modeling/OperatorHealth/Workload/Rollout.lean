import OperatorHealth.Workload.Observation

/-!
# Progress of a rollout

Workloads are looked at one by one, the daemon sets first. Each one that is not done contributes
one line, for the first reason that applies. The release is reached if there is a workload at all
and each one whose state can be read is rolled out completely, for the release. A workload whose
state cannot be read is taken as not created yet: it contributes a line and nothing else.

## Main definitions

* `Rollout`: the lines and the verdict.
* `ObservedDaemonSet.progress?`, `ObservedDeployment.progress?`: the line of a workload.
* `ObservedDaemonSet.isAtRelease`, `ObservedDeployment.isAtRelease`: whether it is rolled out.
* `Rollout.survey`: the rollout of lists of workloads.
-/

namespace OperatorHealth

/-- How far workloads are: whether the release is reached, and a line for each that is on its
way. -/
structure Rollout where
  reachedRelease : Bool
  progressing : List String
  deriving DecidableEq, Repr

/-! ### Lines -/

/-- Lines about a workload. -/
inductive Progress
  | awaitingCreation
  | rollingOut (updated desired : Int32)
  | unavailable (count : Int32)
  | unscheduled
  | beingProcessed (generation observed : Int64)
  deriving DecidableEq, Repr

/-- The text of a line. -/
def Progress.text (kind : WorkloadKind) (id : WorkloadName) (p : Progress) : String :=
  let subject := kind.text ++ " \"" ++ id.text ++ "\""
  match p with
  | awaitingCreation => "Waiting for " ++ subject ++ " to be created"
  | rollingOut updated desired =>
    subject ++ s!" update is rolling out ({updated.toInt} out of {desired.toInt} updated)"
  | unavailable count => subject ++ s!" is not available (awaiting {count.toInt} nodes)"
  | unscheduled => subject ++ " is not yet scheduled on any nodes"
  | beingProcessed generation observed =>
    subject ++ s!" update is being processed (generation {generation.toInt}, " ++
      s!"observed generation {observed.toInt})"

/-- The first reason why a daemon set is not done. -/
def ObservedDaemonSet.progress? (s : ObservedDaemonSet) : Option Progress :=
  if s.updated < s.desired then some (.rollingOut s.updated s.desired)
  else if 0 < s.unavailable then some (.unavailable s.unavailable)
  else if s.available = 0 then some .unscheduled
  else if s.observedGeneration < s.generation then
    some (.beingProcessed s.generation s.observedGeneration)
  else none

/-- The first reason why a deployment is not done. -/
def ObservedDeployment.progress? (s : ObservedDeployment) : Option Progress :=
  if 0 < s.unavailable then some (.unavailable s.unavailable)
  else if s.available = 0 then some .unscheduled
  else if s.observedGeneration < s.generation then
    some (.beingProcessed s.generation s.observedGeneration)
  else none

/-! ### Verdicts -/

/-- Whether a daemon set is rolled out for a release. -/
def ObservedDaemonSet.isAtRelease (release : String) (s : ObservedDaemonSet) : Bool :=
  decide (s.generation ≤ s.observedGeneration) && s.updated == s.desired &&
    s.unavailable == 0 && s.annotations.version == release

/-- Whether a deployment is rolled out for a release. -/
def ObservedDeployment.isAtRelease (release : String) (s : ObservedDeployment) : Bool :=
  decide (s.generation ≤ s.observedGeneration) && s.updated == s.replicas &&
    decide (0 < s.available) && s.annotations.version == release

/-! ### Lists of workloads -/

namespace Rollout

/-- The rollout before any of `count` workloads is looked at. -/
def initial (count : Nat) : Rollout := { reachedRelease := 0 < count, progressing := [] }

/-- The rollout after one more workload, with its reason not to be done, if any, and whether it
leaves the release in reach. -/
def add (r : Rollout) (kind : WorkloadKind) (id : WorkloadName) (progress : Option Progress)
    (atRelease : Bool) : Rollout where
  reachedRelease := r.reachedRelease && atRelease
  progressing := r.progressing ++ (progress.map (Progress.text kind id)).toList

/-- The rollout after a daemon set. -/
def addDaemonSet (inspector : Inspector) (release : String) (r : Rollout)
    (id : WorkloadName) : Rollout :=
  match inspector.daemonSet id with
  | .error _ => r.add .daemonSet id (some .awaitingCreation) true
  | .ok s => r.add .daemonSet id s.progress? (s.isAtRelease release)

/-- The rollout after a deployment. -/
def addDeployment (inspector : Inspector) (release : String) (r : Rollout)
    (id : WorkloadName) : Rollout :=
  match inspector.deployment id with
  | .error _ => r.add .deployment id (some .awaitingCreation) true
  | .ok s => r.add .deployment id s.progress? (s.isAtRelease release)

/-- The rollout of lists of workloads for a release. -/
def survey (inspector : Inspector) (daemonSets deployments : List WorkloadName)
    (release : String) : Rollout :=
  deployments.foldl (addDeployment inspector release)
    (daemonSets.foldl (addDaemonSet inspector release)
      (initial (daemonSets.length + deployments.length)))

end Rollout

end OperatorHealth
