import OperatorHealth.Condition.Degraded
import OperatorHealth.Publisher
import OperatorHealth.Workload.Rollout

/-!
# The reporter

A reporter is where the parts of an operator tell how they are. It keeps the degraded conditions by
tier and the lists of workloads to watch, turns each thing it is told into a report, and hands
that to its publisher. What it is told counts even if the publisher does not accept the report.

## Main definitions

* `Reporter`: a publisher with what the reporter keeps.
* `Signal`: what a reporter is told.
* `Reporter.answer`: the ledger and the report after a signal.
* `Reporter.report`: taking a signal.
-/

namespace OperatorHealth

/-- What a reporter is told. -/
inductive Signal
  /-- The operator is degraded for a reason of a tier. -/
  | degraded (tier : Tier) (reason message : String)
  /-- No reason of a tier is left. -/
  | recovered (tier : Tier)
  /-- The workloads should be looked at. -/
  | workloads
  deriving DecidableEq, Repr

/-- Why a reporter cannot be set up. -/
inductive SetupError
  | noStore
  | noInspector
  | capacity (error : CapacityError)
  deriving DecidableEq, Repr

/-- The text of the error. -/
def SetupError.message : SetupError → String
  | noStore => "StatusManager requires an object store"
  | noInspector => "StatusManager requires a workload inspector"
  | capacity error => error.message

/-- A publisher, the degraded conditions by tier, and the workloads to watch. -/
structure Reporter (σ : Type) where
  publisher : Publisher σ
  inspector : Inspector
  ledger : DegradedLedger := .empty
  daemonSets : List WorkloadName := []
  deployments : List WorkloadName := []

/-! ### Reports -/

/-- The report that only says whether the operator is degraded. -/
def DegradedLedger.toReport (l : DegradedLedger) : StatusReport :=
  { conditions := [l.shown], reachedRelease := false }

/-- The conditions that say how far workloads are. -/
def Rollout.conditions (r : Rollout) : List Condition :=
  if r.progressing = [] then
    [{ kind := .progressing, status := .false }, { kind := .available, status := .true }]
  else
    [{ kind := .progressing, status := .true, reason := "Deploying"
       message := String.intercalate "\n" r.progressing }]

/-- The report on the workloads, which also says whether the operator is degraded. -/
def Rollout.toReport (r : Rollout) (l : DegradedLedger) : StatusReport :=
  { conditions := l.shown :: r.conditions, reachedRelease := r.reachedRelease }

namespace Reporter

variable {σ : Type}

/-- A reporter that is not started. What it needs first is asked for first. -/
def new? (name release : String) (store : Option σ) (inspector : Option Inspector)
    (capacity : Nat) : Except SetupError (Reporter σ) :=
  match store with
  | none => .error .noStore
  | some store =>
    match Publisher.new? name release capacity store, inspector with
    | .error e, _ => .error (.capacity e)
    | .ok _, none => .error .noInspector
    | .ok publisher, some inspector => .ok { publisher, inspector }

/-- How far the workloads are. -/
def rollout (r : Reporter σ) : Rollout :=
  .survey r.inspector r.daemonSets r.deployments r.publisher.release

/-- The ledger after a signal, and the report on it. Workloads that cannot be read are on their way
and not degraded, so looking at the workloads clears their tier. -/
def answer (r : Reporter σ) : Signal → DegradedLedger × StatusReport
  | .degraded tier reason message =>
    let ledger := r.ledger.set tier
      (some { kind := .degraded, status := .true, reason, message })
    (ledger, ledger.toReport)
  | .recovered tier =>
    let ledger := r.ledger.set tier none
    (ledger, ledger.toReport)
  | .workloads =>
    let ledger := r.ledger.set .podDeployment none
    (ledger, r.rollout.toReport ledger)

/-! ### Calls -/

variable [ResourceStore σ]

/-- Takes a signal. -/
def report (now : Instant) (signal : Signal) (r : Reporter σ) : Reporter σ :=
  let (ledger, report) := r.answer signal
  { r with ledger, publisher := (r.publisher.enqueue now report).2 }

/-- Takes the signal that the operator is degraded, for the tier with a code. -/
def reportDegraded (now : Instant) (code : UInt8) (reason message : String) (r : Reporter σ) :
    Except InvalidTier (Reporter σ) :=
  (Tier.ofCode? code).map fun tier => r.report now (.degraded tier reason message)

/-- Takes the signal that no reason is left, for the tier with a code. -/
def reportRecovered (now : Instant) (code : UInt8) (r : Reporter σ) :
    Except InvalidTier (Reporter σ) :=
  (Tier.ofCode? code).map fun tier => r.report now (.recovered tier)

/-- Starts the publisher. -/
def start (r : Reporter σ) : Reporter σ := { r with publisher := r.publisher.start }

/-- Stops the publisher. -/
def stop (now : Instant) (r : Reporter σ) : Reporter σ :=
  { r with publisher := r.publisher.stop now }

/-- Lets the publisher do all it can. -/
def settle (now : Instant) (r : Reporter σ) : Reporter σ :=
  { r with publisher := r.publisher.settle now }

end Reporter

end OperatorHealth
