import OperatorHealth.Proofs.Workload.Rollout
import OperatorHealth.Workload.Static

/-!
# Lines against the verdict

Whether the release is reached is decided by other conditions than the lines are, so the two may
disagree. When the release is reached, a workload may still be waited for, a daemon set may not be
scheduled on any node, and a deployment may have pods that are not available; there are no other
lines. When there is no line at all and every state could be read, the release is missed exactly
if a workload is not labelled with it, a daemon set has more updated pods than it wants, or a
deployment has not updated as many replicas as it has.

## Main definitions

* `ObservedDaemonSet.gaps`, `ObservedDeployment.gaps`: the reasons that do not count.
* `Inspector.daemonSetGap?`, `Inspector.deploymentGap?`: the line of a workload that counts as done.
* `ObservedDaemonSet.Deviates`, `ObservedDeployment.Deviates`: what no line tells of.

## Main results

* `Rollout.progressing_of_reachedRelease`: the lines when the release is reached.
* `Rollout.reachedRelease_eq_false_iff_of_silent`: why the release is missed without a line.
* `Rollout.lines_against_verdict`: both.
-/

namespace OperatorHealth

namespace Reason

theorem first?_eq_none_iff {reasons : List Reason} :
    first? reasons = none ↔ ∀ r ∈ reasons, r.applies = false := by
  simp [first?]

/-- The line is the same for two chains that agree on the state that was read. -/
theorem line?_congr {α : Type} {subject : String} {reasons reasons' : String → α → List Reason}
    {fetched : Except FetchError α}
    (h : ∀ s, fetched = .ok s → first? (reasons subject s) = first? (reasons' subject s)) :
    line? subject reasons fetched = line? subject reasons' fetched := by
  cases fetched with
  | error e => rfl
  | ok s => exact h s rfl

end Reason

/-! ### Daemon sets and deployments -/

namespace ObservedDaemonSet

variable {release subject : String} {s : ObservedDaemonSet}

/-- The reason that leaves the release in reach: an empty daemon set may be meant to be empty. -/
def gaps (subject : String) (s : ObservedDaemonSet) : List Reason :=
  [.unscheduled subject s.available.toInt]

/-- A daemon set is not done in a way that is none of the reasons. -/
def Deviates (release : String) (s : ObservedDaemonSet) : Prop :=
  ¬ s.annotations.IsFor release ∨ s.desired.toInt < s.updated.toInt

theorem IsRolledOut.first?_reasons (h : s.IsRolledOut release) (subject : String) :
    Reason.first? (s.reasons subject) = Reason.first? (s.gaps subject) := by
  obtain ⟨hgeneration, hupdated, hunavailable, -⟩ := h
  have hseen : ¬ s.observedGeneration.toInt < s.generation.toInt := by omega
  simp [reasons, gaps, Reason.first?_cons, Reason.rollingOut, Reason.unavailable,
    Reason.unscheduled, Reason.beingProcessed, hupdated, hunavailable, hseen]

/-- Without a line, nothing but a deviation is in the way. -/
theorem isRolledOut_iff_of_silent (hsilent : Reason.first? (s.reasons subject) = none)
    (hcount : 0 ≤ s.unavailable.toInt) : s.IsRolledOut release ↔ ¬ s.Deviates release := by
  simp only [Reason.first?_eq_none_iff, reasons, List.forall_mem_cons, Reason.rollingOut,
    Reason.unavailable, Reason.beingProcessed, decide_eq_false_iff_not] at hsilent
  -- silence bounds each number on one side only, and the count closes the other one
  obtain ⟨hupdated, hunavailable, -, hgeneration, -⟩ := hsilent
  rw [Deviates, not_or, not_not]
  constructor
  · exact fun h => ⟨h.release, by have := h.updated; omega⟩
  · rintro ⟨hrelease, hmost⟩
    exact ⟨by omega, by omega, by omega, hrelease⟩

end ObservedDaemonSet

namespace ObservedDeployment

variable {release subject : String} {s : ObservedDeployment}

/-- The reason that leaves the release in reach: some pods are available, and some are not. -/
def gaps (subject : String) (s : ObservedDeployment) : List Reason :=
  [.unavailable subject s.unavailable.toInt]

/-- A deployment is not done in a way that is none of the reasons. -/
def Deviates (release : String) (s : ObservedDeployment) : Prop :=
  ¬ s.annotations.IsFor release ∨ s.updated.toInt ≠ s.replicas.toInt

theorem IsRolledOut.first?_reasons (h : s.IsRolledOut release) (subject : String) :
    Reason.first? (s.reasons subject) = Reason.first? (s.gaps subject) := by
  obtain ⟨hgeneration, -, havailable, -⟩ := h
  have hseen : ¬ s.observedGeneration.toInt < s.generation.toInt := by omega
  have hsome : s.available.toInt ≠ 0 := by omega
  simp [reasons, gaps, Reason.first?_cons, Reason.unavailable, Reason.unscheduled,
    Reason.beingProcessed, hseen, hsome]

/-- Without a line, nothing but a deviation is in the way. -/
theorem isRolledOut_iff_of_silent (hsilent : Reason.first? (s.reasons subject) = none)
    (hcount : 0 ≤ s.available.toInt) : s.IsRolledOut release ↔ ¬ s.Deviates release := by
  simp only [Reason.first?_eq_none_iff, reasons, List.forall_mem_cons, Reason.unscheduled,
    Reason.beingProcessed, decide_eq_false_iff_not] at hsilent
  obtain ⟨-, havailable, hgeneration, -⟩ := hsilent
  rw [Deviates, not_or, not_not, not_not]
  constructor
  · exact fun h => ⟨h.release, h.updated⟩
  · rintro ⟨hrelease, hupdated⟩
    exact ⟨by omega, hupdated, by omega, hrelease⟩

end ObservedDeployment

namespace Inspector

variable (inspector : Inspector)

/-- The line about a daemon set that is rolled out, or cannot be read. -/
def daemonSetGap? (id : WorkloadName) : Option String :=
  Reason.line? (Reason.subject "DaemonSet" id.text) ObservedDaemonSet.gaps
    (inspector.daemonSet id)

/-- The line about a deployment that is rolled out, or cannot be read. -/
def deploymentGap? (id : WorkloadName) : Option String :=
  Reason.line? (Reason.subject "Deployment" id.text) ObservedDeployment.gaps
    (inspector.deployment id)

end Inspector

/-! ### Lists of workloads -/

namespace Rollout

variable {inspector : Inspector} {daemonSets deployments : List WorkloadName} {release : String}

/-- When the release is reached, the lines are those of workloads that are waited for and the gaps
of the others. -/
theorem progressing_of_reachedRelease
    (h : (survey inspector daemonSets deployments release).reachedRelease = true) :
    (survey inspector daemonSets deployments release).progressing =
      daemonSets.filterMap inspector.daemonSetGap? ++
        deployments.filterMap inspector.deploymentGap? := by
  obtain ⟨-, hdaemonSets, hdeployments⟩ := (reachedRelease_survey_iff ..).mp h
  have hfirst : daemonSets.filterMap inspector.daemonSetLine? =
      daemonSets.filterMap inspector.daemonSetGap? :=
    List.filterMap_congr fun id hid =>
      Reason.line?_congr fun s hs => (hdaemonSets id hid s hs).first?_reasons _
  have hsecond : deployments.filterMap inspector.deploymentLine? =
      deployments.filterMap inspector.deploymentGap? :=
    List.filterMap_congr fun id hid =>
      Reason.line?_congr fun s hs => (hdeployments id hid s hs).first?_reasons _
  rw [progressing_survey, hfirst, hsecond]

/-- If everything was read and each workload is done unless it deviates, one deviates if not all of
them are done. -/
theorem exists_deviates_iff {α : Type} {fetch : WorkloadName → Except FetchError α}
    {IsDone Deviates : α → Prop} {ids : List WorkloadName}
    (h : ∀ id ∈ ids, ∃ s, fetch id = .ok s ∧ (IsDone s ↔ ¬ Deviates s)) :
    (∃ id ∈ ids, ∃ s, fetch id = .ok s ∧ Deviates s) ↔
      ¬ ∀ id ∈ ids, ∀ s, fetch id = .ok s → IsDone s := by
  constructor
  · rintro ⟨id, hid, s, hs, hdeviates⟩ hall
    obtain ⟨t, ht, hdone⟩ := h id hid
    obtain rfl : s = t := Except.ok.inj (hs.symm.trans ht)
    exact hdone.mp (hall id hid s hs) hdeviates
  · intro hnot
    by_contra hnone
    refine hnot fun id hid s hs => ?_
    obtain ⟨t, ht, hdone⟩ := h id hid
    obtain rfl : s = t := Except.ok.inj (hs.symm.trans ht)
    exact hdone.mpr fun hdeviates => hnone ⟨id, hid, s, hs, hdeviates⟩

/-- Without a line, the release is missed exactly if some workload deviates. -/
theorem reachedRelease_eq_false_iff_of_silent
    (hdaemonSets : ∀ id ∈ daemonSets, ∃ s,
      inspector.daemonSet id = .ok s ∧ 0 ≤ s.unavailable.toInt)
    (hdeployments : ∀ id ∈ deployments, ∃ s,
      inspector.deployment id = .ok s ∧ 0 ≤ s.available.toInt)
    (hsome : daemonSets ≠ [] ∨ deployments ≠ [])
    (hsilent : (survey inspector daemonSets deployments release).progressing = []) :
    (survey inspector daemonSets deployments release).reachedRelease = false ↔
      (∃ id ∈ daemonSets, ∃ s, inspector.daemonSet id = .ok s ∧ s.Deviates release) ∨
      ∃ id ∈ deployments, ∃ s, inspector.deployment id = .ok s ∧ s.Deviates release := by
  rw [progressing_survey, List.append_eq_nil_iff, List.filterMap_eq_nil_iff,
    List.filterMap_eq_nil_iff] at hsilent
  have hfirst : ∀ id ∈ daemonSets, ∃ s, inspector.daemonSet id = .ok s ∧
      (s.IsRolledOut release ↔ ¬ s.Deviates release) := by
    intro id hid
    obtain ⟨s, hs, hcount⟩ := hdaemonSets id hid
    have hline := hsilent.1 id hid
    rw [Inspector.daemonSetLine?, hs] at hline
    exact ⟨s, hs, ObservedDaemonSet.isRolledOut_iff_of_silent hline hcount⟩
  have hsecond : ∀ id ∈ deployments, ∃ s, inspector.deployment id = .ok s ∧
      (s.IsRolledOut release ↔ ¬ s.Deviates release) := by
    intro id hid
    obtain ⟨s, hs, hcount⟩ := hdeployments id hid
    have hline := hsilent.2 id hid
    rw [Inspector.deploymentLine?, hs] at hline
    exact ⟨s, hs, ObservedDeployment.isRolledOut_iff_of_silent hline hcount⟩
  rw [exists_deviates_iff hfirst, exists_deviates_iff hsecond, ← Bool.not_eq_true,
    reachedRelease_survey_iff, not_and, not_and_or]
  exact ⟨fun h => h hsome, fun h _ => h⟩

/-- **The lines and the verdict agree but for known gaps.** When the release is reached, every line
is that of a workload that could not be read, of a daemon set with no pod available, or of a
deployment with pods that are not, and each such workload has its line. When there is no line, all
states were read and no count is negative, the release is missed exactly if a workload is not
labelled with it, a daemon set has more updated pods than it wants, or a deployment has updated
another number of replicas than it has. The other counts may as well be negative. -/
theorem lines_against_verdict (inspector : Inspector) (daemonSets deployments : List WorkloadName)
    (release : String) :
    ((survey inspector daemonSets deployments release).reachedRelease = true →
      (survey inspector daemonSets deployments release).progressing =
        daemonSets.filterMap inspector.daemonSetGap? ++
          deployments.filterMap inspector.deploymentGap?) ∧
    ((∀ id ∈ daemonSets, ∃ s, inspector.daemonSet id = .ok s ∧ 0 ≤ s.unavailable.toInt) →
      (∀ id ∈ deployments, ∃ s, inspector.deployment id = .ok s ∧ 0 ≤ s.available.toInt) →
      daemonSets ≠ [] ∨ deployments ≠ [] →
      (survey inspector daemonSets deployments release).progressing = [] →
      ((survey inspector daemonSets deployments release).reachedRelease = false ↔
        (∃ id ∈ daemonSets, ∃ s, inspector.daemonSet id = .ok s ∧
          (¬ s.annotations.IsFor release ∨ s.desired.toInt < s.updated.toInt)) ∨
        ∃ id ∈ deployments, ∃ s, inspector.deployment id = .ok s ∧
          (¬ s.annotations.IsFor release ∨ s.updated.toInt ≠ s.replicas.toInt))) :=
  ⟨progressing_of_reachedRelease, reachedRelease_eq_false_iff_of_silent⟩

/-- A release that is reached with a line for each of the three workloads, and one that is missed
without a line since a deployment has updated one of its three replicas. -/
theorem lines_against_verdict_bothGaps :
    let sdn : WorkloadName := ⟨"openshift-sdn", "sdn"⟩
    let dns : WorkloadName := ⟨"openshift-dns", "dns"⟩
    let api : WorkloadName := ⟨"", "api"⟩
    let labels : Annotations := .ofList [("owner", "cluster"), (Annotations.versionKey, "4.1.0")]
    let empty : ObservedDaemonSet :=
      { generation := 2, observedGeneration := 2, annotations := labels }
    let short : ObservedDeployment :=
      { replicas := 3, updated := 3, available := 2, unavailable := 1, annotations := labels }
    let strained : WorkloadTable := ⟨[(sdn, empty)], [(api, short)]⟩
    let lagging : WorkloadTable :=
      ⟨[], [(api, { short with updated := 1, available := 3, unavailable := 0 })]⟩
    (survey strained.inspector [sdn, dns] [api] "4.1.0").reachedRelease = true ∧
    (survey strained.inspector [sdn, dns] [api] "4.1.0").progressing =
      ["DaemonSet \"openshift-sdn/sdn\" is not yet scheduled on any nodes",
        "Waiting for DaemonSet \"openshift-dns/dns\" to be created",
        "Deployment \"api\" is not available (awaiting 1 nodes)"] ∧
    (survey lagging.inspector [] [api] "4.1.0").progressing = [] ∧
    (survey lagging.inspector [] [api] "4.1.0").reachedRelease = false := by
  intro sdn dns api labels empty short strained lagging
  have hreached : (survey strained.inspector [sdn, dns] [api] "4.1.0").reachedRelease = true := by
    decide +kernel
  have hgaps : [sdn, dns].filterMap strained.inspector.daemonSetGap? ++
      [api].filterMap strained.inspector.deploymentGap? =
        ["DaemonSet \"openshift-sdn/sdn\" is not yet scheduled on any nodes",
          "Waiting for DaemonSet \"openshift-dns/dns\" to be created",
          "Deployment \"api\" is not available (awaiting 1 nodes)"] := by
    decide +kernel
  have hsilent : (survey lagging.inspector [] [api] "4.1.0").progressing = [] := by
    decide +kernel
  have hcounts : ∀ id ∈ [api], ∃ s, lagging.inspector.deployment id = .ok s ∧
      0 ≤ s.available.toInt := by
    rw [List.forall_mem_singleton]
    exact ⟨_, rfl, by decide⟩
  obtain ⟨hlines, -⟩ := lines_against_verdict strained.inspector [sdn, dns] [api] "4.1.0"
  obtain ⟨-, hmissed⟩ := lines_against_verdict lagging.inspector [] [api] "4.1.0"
  refine ⟨hreached, (hlines hreached).trans hgaps, hsilent, ?_⟩
  refine (hmissed (by simp) hcounts (by simp) hsilent).mpr (.inr ⟨api, List.mem_cons_self, ?_⟩)
  exact ⟨_, rfl, .inr (by decide)⟩

end Rollout

end OperatorHealth
