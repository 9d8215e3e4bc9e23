import OperatorHealth.Proofs.Workload.Annotations
import OperatorHealth.Workload.Rollout

/-!
# What a rollout says of its workloads

A rollout has at most one line for each workload, in the order of the lists, the daemon sets first.
A workload whose state cannot be read is waited for. Of any other the line gives the first reason in
the chain of its kind that applies, whatever its numbers are, and there is no line if none does. The
release is reached exactly if there is a workload at all and each one that can be read is rolled
out for it.

## Main definitions

* `Reason`, `Reason.first?`: the reasons in a chain, and the line of the first one that applies.
* `ObservedDaemonSet.reasons`, `ObservedDeployment.reasons`: the chains.
* `ObservedDaemonSet.IsRolledOut`, `ObservedDeployment.IsRolledOut`: workloads that are done.
* `Inspector.daemonSetLine?`, `Inspector.deploymentLine?`: the line of a workload.
* `Rollout.Adds`: what looking at one more workload adds.

## Main results

* `ObservedDaemonSet.map_text_progress?`, `ObservedDeployment.map_text_progress?`: chains against
  the conditions that are tested one after the other.
* `Rollout.Adds.foldl`: what looking at a list of workloads adds.
* `Rollout.survey_accounted`: the lines of a rollout, and when the release is reached.
-/

namespace OperatorHealth

/-! ### Reasons -/

/-- A reason why a workload is not done: whether it applies, and the line that gives it. -/
structure Reason where
  applies : Bool
  line : String

namespace Reason

/-- The line of the first reason that applies. -/
def first? (reasons : List Reason) : Option String := (reasons.find? applies).map line

theorem first?_cons (r : Reason) (rs : List Reason) :
    first? (r :: rs) = if r.applies then some r.line else first? rs := by
  cases h : r.applies <;> simp [first?, h]

/-- How a workload is called in a line. -/
def subject (kind name : String) : String := kind ++ " \"" ++ name ++ "\""

section Lines

variable (subject : String)

/-- Pods of an earlier generation are left. -/
def rollingOut (updated desired : Int) : Reason :=
  ⟨updated < desired, subject ++ s!" update is rolling out ({updated} out of {desired} updated)"⟩

/-- Pods are not available. -/
def unavailable (count : Int) : Reason :=
  ⟨0 < count, subject ++ s!" is not available (awaiting {count} nodes)"⟩

/-- No pod is available. -/
def unscheduled (available : Int) : Reason :=
  ⟨available = 0, subject ++ " is not yet scheduled on any nodes"⟩

/-- The cluster has not seen the latest generation. -/
def beingProcessed (generation observed : Int) : Reason :=
  ⟨observed < generation, subject ++ s!" update is being processed (generation {generation}, " ++
    s!"observed generation {observed})"⟩

/-- The line for a workload: it is waited for if its state cannot be read, and otherwise the first
reason counts. -/
def line? {α : Type} (reasons : String → α → List Reason) (fetched : Except FetchError α) :
    Option String :=
  match fetched with
  | .error _ => some ("Waiting for " ++ subject ++ " to be created")
  | .ok s => first? (reasons subject s)

end Lines

end Reason

/-! ### Daemon sets and deployments -/

namespace ObservedDaemonSet

/-- Why a daemon set is not done, by precedence. -/
def reasons (subject : String) (s : ObservedDaemonSet) : List Reason :=
  [.rollingOut subject s.updated.toInt s.desired.toInt, .unavailable subject s.unavailable.toInt,
    .unscheduled subject s.available.toInt,
    .beingProcessed subject s.generation.toInt s.observedGeneration.toInt]

/-- A daemon set is rolled out for a release. -/
structure IsRolledOut (release : String) (s : ObservedDaemonSet) : Prop where
  generation : s.generation.toInt ≤ s.observedGeneration.toInt
  updated : s.updated.toInt = s.desired.toInt
  unavailable : s.unavailable.toInt = 0
  release : s.annotations.IsFor release

theorem map_text_progress? (id : WorkloadName) (s : ObservedDaemonSet) :
    s.progress?.map (Progress.text .daemonSet id) =
      Reason.first? (s.reasons (Reason.subject "DaemonSet" id.text)) := by
  have hpos : 0 < s.unavailable ↔ 0 < s.unavailable.toInt := Int32.lt_iff_toInt_lt
  have hzero : s.available = 0 ↔ s.available.toInt = 0 := Int32.toInt_inj.symm
  simp only [progress?, reasons, Reason.first?_cons, Reason.rollingOut, Reason.unavailable,
    Reason.unscheduled, Reason.beingProcessed, decide_eq_true_eq, Int32.lt_iff_toInt_lt,
    Int64.lt_iff_toInt_lt, hpos, hzero]
  split_ifs <;> rfl

theorem isAtRelease_iff {release : String} {s : ObservedDaemonSet} :
    s.isAtRelease release = true ↔ s.IsRolledOut release := by
  have hzero : s.unavailable = 0 ↔ s.unavailable.toInt = 0 := Int32.toInt_inj.symm
  simp only [isAtRelease, Bool.and_eq_true, decide_eq_true_eq, beq_iff_eq, Int64.le_iff_toInt_le,
    ← Int32.toInt_inj (x := s.updated), hzero, Annotations.version_eq_iff]
  constructor
  · rintro ⟨⟨⟨hgeneration, hupdated⟩, hunavailable⟩, hrelease⟩
    exact ⟨hgeneration, hupdated, hunavailable, hrelease⟩
  · exact fun h => ⟨⟨⟨h.generation, h.updated⟩, h.unavailable⟩, h.release⟩

end ObservedDaemonSet

namespace ObservedDeployment

/-- Why a deployment is not done, by precedence. -/
def reasons (subject : String) (s : ObservedDeployment) : List Reason :=
  [.unavailable subject s.unavailable.toInt, .unscheduled subject s.available.toInt,
    .beingProcessed subject s.generation.toInt s.observedGeneration.toInt]

/-- A deployment is rolled out for a release. -/
structure IsRolledOut (release : String) (s : ObservedDeployment) : Prop where
  generation : s.generation.toInt ≤ s.observedGeneration.toInt
  updated : s.updated.toInt = s.replicas.toInt
  available : 0 < s.available.toInt
  release : s.annotations.IsFor release

theorem map_text_progress? (id : WorkloadName) (s : ObservedDeployment) :
    s.progress?.map (Progress.text .deployment id) =
      Reason.first? (s.reasons (Reason.subject "Deployment" id.text)) := by
  have hpos : 0 < s.unavailable ↔ 0 < s.unavailable.toInt := Int32.lt_iff_toInt_lt
  have hzero : s.available = 0 ↔ s.available.toInt = 0 := Int32.toInt_inj.symm
  simp only [progress?, reasons, Reason.first?_cons, Reason.unavailable, Reason.unscheduled,
    Reason.beingProcessed, decide_eq_true_eq, Int64.lt_iff_toInt_lt, hpos, hzero]
  split_ifs <;> rfl

theorem isAtRelease_iff {release : String} {s : ObservedDeployment} :
    s.isAtRelease release = true ↔ s.IsRolledOut release := by
  have hpos : 0 < s.available ↔ 0 < s.available.toInt := Int32.lt_iff_toInt_lt
  simp only [isAtRelease, Bool.and_eq_true, decide_eq_true_eq, beq_iff_eq, Int64.le_iff_toInt_le,
    ← Int32.toInt_inj (x := s.updated), hpos, Annotations.version_eq_iff]
  constructor
  · rintro ⟨⟨⟨hgeneration, hupdated⟩, havailable⟩, hrelease⟩
    exact ⟨hgeneration, hupdated, havailable, hrelease⟩
  · exact fun h => ⟨⟨⟨h.generation, h.updated⟩, h.available⟩, h.release⟩

end ObservedDeployment

namespace Inspector

variable (inspector : Inspector)

/-- The line about a daemon set. -/
def daemonSetLine? (id : WorkloadName) : Option String :=
  Reason.line? (Reason.subject "DaemonSet" id.text) ObservedDaemonSet.reasons
    (inspector.daemonSet id)

/-- The line about a deployment. -/
def deploymentLine? (id : WorkloadName) : Option String :=
  Reason.line? (Reason.subject "Deployment" id.text) ObservedDeployment.reasons
    (inspector.deployment id)

end Inspector

/-! ### Lists of workloads -/

namespace Rollout

/-- Looking at a workload adds its line, if it has one, and puts the release out of reach unless
the workload allows for it. -/
structure Adds (look : Rollout → WorkloadName → Rollout) (line? : WorkloadName → Option String)
    (Allows : WorkloadName → Prop) : Prop where
  progressing : ∀ r id, (look r id).progressing = r.progressing ++ (line? id).toList
  reachedRelease : ∀ r id,
    (look r id).reachedRelease = true ↔ r.reachedRelease = true ∧ Allows id

/-- Looking at one workload after the other adds the lines in order, and the release stays in reach
only if all of them allow for it. -/
theorem Adds.foldl {look : Rollout → WorkloadName → Rollout}
    {line? : WorkloadName → Option String} {Allows : WorkloadName → Prop}
    (h : Adds look line? Allows) (ids : List WorkloadName) (r : Rollout) :
    (ids.foldl look r).progressing = r.progressing ++ ids.filterMap line? ∧
    ((ids.foldl look r).reachedRelease = true ↔
      r.reachedRelease = true ∧ ∀ id ∈ ids, Allows id) := by
  induction ids generalizing r with
  | nil => simp
  | cons id ids ih =>
    obtain ⟨hlines, hreached⟩ := ih (look r id)
    constructor
    · rw [List.foldl_cons, hlines, h.progressing, List.append_assoc, List.filterMap_cons]
      cases line? id <;> rfl
    · rw [List.foldl_cons, hreached, h.reachedRelease, List.forall_mem_cons, and_assoc]

variable (inspector : Inspector) (daemonSets deployments : List WorkloadName) (release : String)

theorem adds_addDaemonSet : Adds (addDaemonSet inspector release) inspector.daemonSetLine?
    fun id => ∀ s, inspector.daemonSet id = .ok s → s.IsRolledOut release where
  progressing r id := by
    rw [addDaemonSet, Inspector.daemonSetLine?]
    cases inspector.daemonSet id with
    | error e => rfl
    | ok s => rw [Reason.line?, ← ObservedDaemonSet.map_text_progress?]; rfl
  reachedRelease r id := by
    rw [addDaemonSet]
    cases inspector.daemonSet id <;> simp [add, ObservedDaemonSet.isAtRelease_iff]

theorem adds_addDeployment : Adds (addDeployment inspector release) inspector.deploymentLine?
    fun id => ∀ s, inspector.deployment id = .ok s → s.IsRolledOut release where
  progressing r id := by
    rw [addDeployment, Inspector.deploymentLine?]
    cases inspector.deployment id with
    | error e => rfl
    | ok s => rw [Reason.line?, ← ObservedDeployment.map_text_progress?]; rfl
  reachedRelease r id := by
    rw [addDeployment]
    cases inspector.deployment id <;> simp [add, ObservedDeployment.isAtRelease_iff]

/-- The lines of a rollout. -/
theorem progressing_survey : (survey inspector daemonSets deployments release).progressing =
    daemonSets.filterMap inspector.daemonSetLine? ++
      deployments.filterMap inspector.deploymentLine? := by
  rw [survey, ((adds_addDeployment inspector release).foldl deployments _).1,
    ((adds_addDaemonSet inspector release).foldl daemonSets _).1]
  rfl

theorem reachedRelease_survey_iff :
    (survey inspector daemonSets deployments release).reachedRelease = true ↔
      (daemonSets ≠ [] ∨ deployments ≠ []) ∧
      (∀ id ∈ daemonSets, ∀ s, inspector.daemonSet id = .ok s → s.IsRolledOut release) ∧
      ∀ id ∈ deployments, ∀ s, inspector.deployment id = .ok s → s.IsRolledOut release := by
  have hinitial : (initial (daemonSets.length + deployments.length)).reachedRelease = true ↔
      daemonSets ≠ [] ∨ deployments ≠ [] := by
    simp only [initial, decide_eq_true_eq, ← List.length_pos_iff]
    omega
  rw [survey, ((adds_addDeployment inspector release).foldl deployments _).2,
    ((adds_addDaemonSet inspector release).foldl daemonSets _).2, hinitial, and_assoc]

/-- **Every workload is accounted for.** The lines are those of the daemon sets and then those of
the deployments, in the order of the lists and at most one for each; and the release is reached
exactly if there is a workload and each one that can be read is rolled out. -/
theorem survey_accounted :
    (survey inspector daemonSets deployments release).progressing =
      daemonSets.filterMap inspector.daemonSetLine? ++
        deployments.filterMap inspector.deploymentLine? ∧
    ((survey inspector daemonSets deployments release).reachedRelease = true ↔
      (daemonSets ≠ [] ∨ deployments ≠ []) ∧
      (∀ id ∈ daemonSets, ∀ s, inspector.daemonSet id = .ok s → s.IsRolledOut release) ∧
      ∀ id ∈ deployments, ∀ s, inspector.deployment id = .ok s → s.IsRolledOut release) :=
  ⟨progressing_survey inspector daemonSets deployments release,
    reachedRelease_survey_iff inspector daemonSets deployments release⟩

end Rollout

end OperatorHealth
