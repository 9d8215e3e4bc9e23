import OperatorHealth.Proofs.Publication.Unchanged

/-!
# Statuses that reflect a report

A status reflects a report when it says all that a cycle for the report would have it say: the
conditions of the report, that upgrades are allowed, something on availability where there is
progress, the version that goes with the report, and the related objects of the moment. A cycle
works out a status that reflects its report, and one that finds nothing to change has found a status
that reflects it already. If no kind of condition occurs twice in a status that reflects a report,
every later cycle for the report finds nothing to change, whatever the clock shows.

## Main definitions

* `ResourceStatus.Reflects`: the status says all that a report asks for.
* `StatusReport.IsPlain`: a report of the kind that the parts of an operator give.
* `StatusReport.Leaves`: what a cycle that does not fail makes of a status.
* `ResourceStatus.mapTimes`, `ClusterOperator.mapTimes`: a status and a resource with other times.

## Main results

* `StatusReport.IsPlain.reflects_applyTo`, `StatusReport.IsPlain.reflects_of_same`: what a cycle
  works out, and what it finds good.
* `ResourceStatus.Reflects.mapTimes`: times do not matter.
* `ResourceStatus.Reflects.same_applyTo`: a cycle for a report that is reflected already.
-/

namespace OperatorHealth

variable {cs : List Condition} {c d : Condition} {now : Instant} {report : StatusReport}
  {release : String} {related : List ObjectReference} {old st : ResourceStatus}

/-- A status says all that a cycle for a report would have it say. -/
structure ResourceStatus.Reflects (report : StatusReport) (release : String)
    (related : List ObjectReference) (st : ResourceStatus) : Prop where
  conveys : ∀ c ∈ report.conditions, Conveys st.conditions c
  upgradeable : Conveys st.conditions upgradeAllowed
  guarded : lacksAvailability st.conditions = false
  versions : st.versions = publishedVersions release report.reachedRelease
  related : sameReferences related st.relatedObjects = true

/-- A report says one thing of each kind at most, and leaves it to the publisher whether upgrades
are allowed. -/
structure StatusReport.IsPlain (report : StatusReport) : Prop where
  nodup_kinds : (report.conditions.map (·.kind)).Nodup
  not_upgradeable : ∀ c ∈ report.conditions, c.kind ≠ .upgradeable

/-! ### Availability and progress -/

theorem lacksAvailability_of_available (h : findCondition .available cs = some c) :
    lacksAvailability cs = false := by
  simp [lacksAvailability, h]

/-- What is not lacking: a word on availability, or progress. -/
theorem lacksAvailability_eq_false_iff : lacksAvailability cs = false ↔
    (∃ c, findCondition .available cs = some c) ∨
      ∀ c, findCondition .progressing cs = some c → c.status ≠ .true := by
  cases havailable : findCondition .available cs with
  | some c => simp [lacksAvailability, havailable]
  | none =>
    cases hprogressing : findCondition .progressing cs <;>
      simp [lacksAvailability, havailable, hprogressing]

theorem lacksAvailability_guardProgress (now : Instant) (cs : List Condition) :
    lacksAvailability (guardProgress now cs) = false := by
  unfold guardProgress
  split
  · exact lacksAvailability_of_available (findCondition_mergeCondition_self now startingUp cs)
  · next h => simpa using h

/-- Allowing upgrades says nothing about availability or progress. -/
theorem lacksAvailability_mergeCondition_upgradeAllowed (now : Instant) (cs : List Condition) :
    lacksAvailability (mergeCondition now upgradeAllowed cs) = lacksAvailability cs := by
  unfold lacksAvailability
  rw [findCondition_mergeCondition_of_ne now cs (by decide),
    findCondition_mergeCondition_of_ne now cs (by decide)]

/-! ### The status that a cycle works out -/

namespace StatusReport

/-- A cycle has the status say what a plain report says. -/
theorem IsPlain.conveys_conditionsAfter (hreport : report.IsPlain) (now : Instant)
    (cs : List Condition) (hc : c ∈ report.conditions) :
    Conveys (report.conditionsAfter now cs) c := by
  obtain ⟨d, hd, hsame⟩ : ∃ d,
      findCondition c.kind (mergeConditions now report.conditions cs) = some d ∧ d.SaysAs c :=
    findCondition_mergeConditions_of_filter_singleton
      (filter_kind_eq_singleton hreport.nodup_kinds hc)
  refine ⟨d, ?_, hsame⟩
  rw [findCondition_conditionsAfter (hreport.not_upgradeable c hc), ← hd]
  -- the guard speaks of availability only where the report has not
  by_cases hkind : c.kind = .available
  · rw [hkind] at hd
    rw [guardProgress, if_neg (by simp [lacksAvailability_of_available hd])]
  · exact findCondition_guardProgress_of_ne hkind

theorem lacksAvailability_conditionsAfter (report : StatusReport) (now : Instant)
    (cs : List Condition) : lacksAvailability (report.conditionsAfter now cs) = false :=
  (lacksAvailability_mergeCondition_upgradeAllowed now _).trans
    (lacksAvailability_guardProgress now _)

/-- **A cycle works out a status that reflects its report.** -/
theorem IsPlain.reflects_applyTo (hreport : report.IsPlain) (release : String)
    (related : List ObjectReference) (now : Instant) (old : ResourceStatus) :
    (report.applyTo release related now old).Reflects report release related where
  conveys _ hc := hreport.conveys_conditionsAfter now old.conditions hc
  upgradeable := ⟨_, findCondition_mergeCondition_self now upgradeAllowed _,
    Condition.status_mergedInto _, Condition.reason_mergedInto _, Condition.message_mergedInto _⟩
  guarded := lacksAvailability_conditionsAfter report now old.conditions
  versions := rfl
  related := beq_self_eq_true _

end StatusReport

/-! ### A status that stays as it is -/

/-- **A status that a cycle finds nothing to change in reflects its report already.** -/
theorem StatusReport.IsPlain.reflects_of_same (hreport : report.IsPlain)
    (h : (report.applyTo release related now old).same old = true) :
    old.Reflects report release related := by
  obtain ⟨hconditions, hversions, hrelated, -⟩ := same_applyTo_iff.mp h
  have hnext := hreport.reflects_applyTo release related now old
  exact ⟨hconditions ▸ hnext.conveys, hconditions ▸ hnext.upgradeable, hconditions ▸ hnext.guarded,
    hversions.symm, sameReferences_iff_perm.mpr hrelated⟩

/-! ### What a cycle leaves -/

/-- What a cycle at `now` that does not fail makes of the status `old`: the one that it works out,
or the old one if that says the same already. -/
def StatusReport.Leaves (report : StatusReport) (release : String) (related : List ObjectReference)
    (now : Instant) (old st : ResourceStatus) : Prop :=
  st = report.applyTo release related now old ∨
    st = old ∧ (report.applyTo release related now old).same old = true

namespace StatusReport.Leaves

theorem reflects (h : report.Leaves release related now old st) (hreport : report.IsPlain) :
    st.Reflects report release related := by
  rcases h with rfl | ⟨rfl, hsame⟩
  · exact hreport.reflects_applyTo release related now old
  · exact hreport.reflects_of_same hsame

theorem nodup_kinds (h : report.Leaves release related now old st)
    (hold : (old.conditions.map (·.kind)).Nodup) : (st.conditions.map (·.kind)).Nodup := by
  rcases h with rfl | ⟨rfl, -⟩
  · exact nodup_kinds_conditionsAfter hold
  · exact hold

/-- Where a report says nothing on availability, the word on it is the one from before, or that
the operator is starting up if there was none. -/
theorem findCondition_available (h : report.Leaves release related now old st)
    (hreport : report.conditions.filter (·.kind = .available) = [])
    (hc : findCondition .available st.conditions = some c) :
    findCondition .available old.conditions = some c ∨
      findCondition .available old.conditions = none ∧ c.SaysAs startingUp := by
  rcases h with rfl | ⟨rfl, -⟩
  · have hmerged : findCondition .available (mergeConditions now report.conditions
        old.conditions) = findCondition .available old.conditions :=
      findCondition_mergeConditions_of_filter_nil hreport
    have hguarded : findCondition .available (guardProgress now
        (mergeConditions now report.conditions old.conditions)) = some c :=
      (findCondition_conditionsAfter (by decide)).symm.trans hc
    unfold guardProgress at hguarded
    split at hguarded
    · next hlacks =>
      have hnone : findCondition .available old.conditions = none := by
        simp only [lacksAvailability, Bool.and_eq_true, Option.isNone_iff_eq_none,
          hmerged] at hlacks
        exact hlacks.1
      have hself := findCondition_mergeCondition_self now startingUp
        (mergeConditions now report.conditions old.conditions)
      obtain rfl := Option.some.inj (hself.symm.trans hguarded)
      exact .inr ⟨hnone, Condition.status_mergedInto _, Condition.reason_mergedInto _,
        Condition.message_mergedInto _⟩
    · exact .inl (hmerged.symm.trans hguarded)
  · exact .inl hc

end StatusReport.Leaves

/-! ### Other times -/

/-- A status with its times mapped. -/
def ResourceStatus.mapTimes (f : Instant → Instant) (st : ResourceStatus) : ResourceStatus :=
  { st with conditions := st.conditions.map fun c =>
      { c with lastTransition := f c.lastTransition } }

/-- A resource with its times mapped. -/
def ClusterOperator.mapTimes (f : Instant → Instant) (r : ClusterOperator) : ClusterOperator :=
  { r with status := r.status.mapTimes f }

theorem ResourceStatus.findCondition_mapTimes (f : Instant → Instant) (k : ConditionKind) :
    findCondition k (st.mapTimes f).conditions =
      (findCondition k st.conditions).map fun c =>
        { c with lastTransition := f c.lastTransition } := by
  simp only [mapTimes, findCondition, List.find?_map]
  rfl

theorem ResourceStatus.map_kind_mapTimes (f : Instant → Instant) (st : ResourceStatus) :
    (st.mapTimes f).conditions.map (·.kind) = st.conditions.map (·.kind) := by
  simp [mapTimes]

theorem Conveys.mapTimes (f : Instant → Instant) (h : Conveys st.conditions c) :
    Conveys (st.mapTimes f).conditions c := by
  obtain ⟨d, hd, hsame⟩ := h
  refine ⟨{ d with lastTransition := f d.lastTransition }, ?_, hsame⟩
  rw [ResourceStatus.findCondition_mapTimes, hd, Option.map_some]

/-- Times do not matter to what a status reflects. -/
theorem ResourceStatus.Reflects.mapTimes (h : st.Reflects report release related)
    (f : Instant → Instant) : (st.mapTimes f).Reflects report release related where
  conveys c hc := (h.conveys c hc).mapTimes f
  upgradeable := h.upgradeable.mapTimes f
  guarded := by
    simp only [lacksAvailability, findCondition_mapTimes, Option.isNone_map, Option.any_map]
    exact h.guarded
  versions := h.versions
  related := h.related

/-! ### Cycles for a report that is reflected already -/

/-- The conditions stay as they are, with their times. -/
theorem ResourceStatus.Reflects.conditionsAfter_eq (h : st.Reflects report release related)
    (now : Instant) : report.conditionsAfter now st.conditions = st.conditions := by
  rw [StatusReport.conditionsAfter, mergeConditions_eq_self h.conveys, guardProgress, h.guarded,
    if_neg Bool.false_ne_true, mergeCondition_eq_self now h.upgradeable]

/-- **A cycle for a report that is reflected already finds nothing to change**, if no kind of
condition occurs twice. -/
theorem ResourceStatus.Reflects.same_applyTo (h : st.Reflects report release related)
    (hnodup : (st.conditions.map (·.kind)).Nodup) (now : Instant) :
    (report.applyTo release related now st).same st = true := by
  simp only [same, StatusReport.applyTo, h.conditionsAfter_eq, sameConditions_self hnodup,
    sameVersions_publishedVersions.mpr h.versions, h.related, Bool.and_self]

end OperatorHealth
