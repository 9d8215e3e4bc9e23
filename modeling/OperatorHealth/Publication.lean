import OperatorHealth.Condition.Merge
import OperatorHealth.Resource.Equality
import OperatorHealth.Store.Basic

/-!
# One cycle of publishing

A cycle reads the resource, works out what it should say, and writes it if that is not what it
says already. A resource that is not found is created. A cycle that fails leaves its report
behind: the next report is the next attempt.

The new status takes over the related objects of the moment, publishes the version only when the
release is reached, and merges the conditions of the report. Progress is never reported before
availability: a resource without a condition for it that makes progress is said to be starting up.
Upgrades are always allowed.

## Main definitions

* `Tally`: the outcomes of cycles so far.
* `StatusReport.applyTo`: the status a resource should have.
* `attempt`, `runCycle`: one cycle, which counts itself.
-/

namespace OperatorHealth

/-! ### Outcomes -/

/-- How a cycle ends. -/
inductive Outcome
  | published
  | skipped
  | failed
  deriving DecidableEq, Repr

/-- How many cycles ended in each way. -/
structure Tally where
  published : Nat := 0
  skipped : Nat := 0
  failed : Nat := 0
  deriving DecidableEq, Repr

/-- The tally with one more outcome. -/
def Tally.count (t : Tally) : Outcome → Tally
  | .published => { t with published := t.published + 1 }
  | .skipped => { t with skipped := t.skipped + 1 }
  | .failed => { t with failed := t.failed + 1 }

/-! ### The status of a resource -/

/-- What is said of availability before anything is known about it. -/
def startingUp : Condition where
  kind := .available
  status := .false
  reason := "Startup"
  message := "The operator is starting up"

/-- The condition that allows upgrades. -/
def upgradeAllowed : Condition := { kind := .upgradeable, status := .true }

/-- Whether conditions report progress and say nothing of availability. -/
def lacksAvailability (cs : List Condition) : Bool :=
  (findCondition .available cs).isNone &&
    (findCondition .progressing cs).any (·.status == .true)

/-- The conditions, completed by the one for starting up where progress needs it. -/
def guardProgress (now : Instant) (cs : List Condition) : List Condition :=
  if lacksAvailability cs then mergeCondition now startingUp cs else cs

/-- The name under which the version of the operator is published. -/
def operatorVersionName : String := "operator"

/-- The versions to publish. -/
def publishedVersions (release : String) (reachedRelease : Bool) : List OperandVersion :=
  if reachedRelease ∧ release ≠ "" then [⟨operatorVersionName, release⟩] else []

/-- The conditions of a resource after a report, at `now`. -/
def StatusReport.conditionsAfter (report : StatusReport) (now : Instant)
    (cs : List Condition) : List Condition :=
  mergeCondition now upgradeAllowed (guardProgress now (mergeConditions now report.conditions cs))

/-- The status of a resource after a report, at `now`. -/
def StatusReport.applyTo (report : StatusReport) (release : String)
    (related : List ObjectReference) (now : Instant) (old : ResourceStatus) : ResourceStatus where
  conditions := report.conditionsAfter now old.conditions
  versions := publishedVersions release report.reachedRelease
  relatedObjects := related

/-! ### The cycle -/

variable {σ : Type} [ResourceStore σ]

/-- Counts a write by how it ended. A failure that is none of the store's own is not counted
here, but handed on. -/
def countWrite (tally : Tally) : Except StoreFault Unit × σ → Except StoreFault Unit × Tally × σ
  | (.ok _, s) => (.ok (), tally.count .published, s)
  | (.error (.store _), s) => (.ok (), tally.count .failed, s)
  | (.error fault, s) => (.error fault, tally, s)

/-- Publishes a report on the operator called `name` at `now`, and counts that, unless a failure
that is none of the store's own gets in the way. -/
def attempt (name release : String) (related : List ObjectReference) (now : Instant)
    (report : StatusReport) (tally : Tally) (s : σ) : Except StoreFault Unit × Tally × σ :=
  match ResourceStore.get name s with
  | (.ok old, s) =>
    let status := report.applyTo release related now old.status
    if status.same old.status then (.ok (), tally.count .skipped, s)
    else countWrite tally (ResourceStore.replaceStatus { old with status } s)
  | (.error (.store (.notFound _)), s) =>
    let status := report.applyTo release related now {}
    if status.same {} then (.ok (), tally.count .skipped, s)
    else countWrite tally (ResourceStore.create { name, status } s)
  | (.error (.store _), s) => (.ok (), tally.count .failed, s)
  | (.error fault, s) => (.error fault, tally, s)

/-- Counts as failed what has not been counted. -/
def countFault : Except StoreFault Unit × Tally × σ → Tally × σ
  | (.ok _, books) => books
  | (.error _, tally, s) => (tally.count .failed, s)

/-- A cycle of the worker: the tally and the store after it. -/
def runCycle (name release : String) (related : List ObjectReference) (now : Instant)
    (report : StatusReport) (tally : Tally) (s : σ) : Tally × σ :=
  countFault (attempt name release related now report tally s)

end OperatorHealth
