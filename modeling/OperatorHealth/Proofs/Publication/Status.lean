import OperatorHealth.Publication
import OperatorHealth.Proofs.Condition.Merge

/-!
# The status that a cycle works out

Whatever a report says, the status that a cycle works out from it holds no kind of condition twice
if the old one did not, allows upgrades, says something of availability where it reports progress,
and publishes the release as its only version or none. Every condition in it has a time if the old
ones had and the clock has passed its first second.

## Main definitions

* `ResourceStatus.WellFormed`: what every published status is like.
* `ResourceStatus.Timed`: every condition has a time.
* `StatusReport.said`: what a cycle merges of one kind.

## Main results

* `StatusReport.wellFormed_applyTo`, `StatusReport.timed_applyTo`.
* `StatusReport.findCondition_degraded_applyTo`: what the status says about being degraded.
* `StatusReport.findCondition_conditionsAfter_of_ne`,
  `StatusReport.findCondition_available_conditionsAfter`: the status kind by kind.
* `StatusReport.not_same_empty`: the status worked out is never the empty one.
-/

namespace OperatorHealth

variable {cs : List Condition} {c : Condition} {now : Instant} {report : StatusReport}
  {release : String} {related : List ObjectReference} {old : ResourceStatus}

/-- What every published status is like. -/
structure ResourceStatus.WellFormed (release : String) (st : ResourceStatus) : Prop where
  nodup_kinds : (st.conditions.map (·.kind)).Nodup
  upgradeable : ∃ c ∈ st.conditions, c.kind = .upgradeable ∧ c.status = .true
  guarded : (∃ c ∈ st.conditions, c.kind = .progressing ∧ c.status = .true) →
    ∃ c ∈ st.conditions, c.kind = .available
  versions : st.versions = [] ∨ st.versions = [⟨"operator", release⟩] ∧ release ≠ ""

/-- Every condition has the time of its last transition. -/
def ResourceStatus.Timed (st : ResourceStatus) : Prop :=
  ∀ c ∈ st.conditions, c.lastTransition ≠ .unset

/-! ### The kinds in the status -/

theorem nodup_kinds_guardProgress (h : (cs.map (·.kind)).Nodup) :
    ((guardProgress now cs).map (·.kind)).Nodup := by
  unfold guardProgress
  split
  · exact nodup_kinds_mergeCondition h
  · exact h

theorem StatusReport.nodup_kinds_conditionsAfter (h : (cs.map (·.kind)).Nodup) :
    ((report.conditionsAfter now cs).map (·.kind)).Nodup :=
  nodup_kinds_mergeCondition (nodup_kinds_guardProgress (nodup_kinds_mergeConditions _ h))

theorem StatusReport.findCondition_upgradeable_conditionsAfter (report : StatusReport)
    (now : Instant) (cs : List Condition) :
    ∃ c, findCondition .upgradeable (report.conditionsAfter now cs) = some c ∧ c.status = .true :=
  ⟨_, findCondition_mergeCondition_self now upgradeAllowed _, Condition.status_mergedInto _⟩

/-- Allowing upgrades leaves the other kinds as the guard has left them. -/
theorem StatusReport.findCondition_conditionsAfter {k : ConditionKind} (hk : k ≠ .upgradeable) :
    findCondition k (report.conditionsAfter now cs) =
      findCondition k (guardProgress now (mergeConditions now report.conditions cs)) :=
  findCondition_mergeCondition_of_ne now _ (Ne.symm hk)

/-- Behind the guard, progress is not reported without a word on availability. -/
theorem findCondition_available_guardProgress
    (h : findCondition .progressing (guardProgress now cs) = some c) (hc : c.status = .true) :
    ∃ d, findCondition .available (guardProgress now cs) = some d := by
  unfold guardProgress at h ⊢
  split at h
  · next hlacks =>
    rw [if_pos hlacks]
    exact ⟨_, findCondition_mergeCondition_self now startingUp cs⟩
  · next hlacks =>
    rw [if_neg hlacks]
    cases hd : findCondition .available cs with
    | some d => exact ⟨d, rfl⟩
    | none => exact absurd (by simp [lacksAvailability, hd, h, hc]) hlacks

theorem StatusReport.guarded_conditionsAfter (hnodup : (cs.map (·.kind)).Nodup)
    (h : ∃ c ∈ report.conditionsAfter now cs, c.kind = .progressing ∧ c.status = .true) :
    ∃ c ∈ report.conditionsAfter now cs, c.kind = .available := by
  obtain ⟨c, hc, hkind, hstatus⟩ := h
  have hfind := findCondition_of_mem (nodup_kinds_conditionsAfter hnodup) hc
  rw [hkind, findCondition_conditionsAfter (by decide)] at hfind
  obtain ⟨d, hd⟩ := findCondition_available_guardProgress hfind hstatus
  rw [← findCondition_conditionsAfter (by decide)] at hd
  exact ⟨d, mem_of_findCondition hd⟩

/-- A cycle works out a well-formed status from one in which no kind occurs twice. -/
theorem StatusReport.wellFormed_applyTo (h : (old.conditions.map (·.kind)).Nodup) :
    (report.applyTo release related now old).WellFormed release where
  nodup_kinds := nodup_kinds_conditionsAfter h
  upgradeable := by
    obtain ⟨c, hfind, hc⟩ := report.findCondition_upgradeable_conditionsAfter now old.conditions
    obtain ⟨hmem, hkind⟩ := mem_of_findCondition hfind
    exact ⟨c, hmem, hkind, hc⟩
  guarded := guarded_conditionsAfter h
  versions := by
    have hversions : (report.applyTo release related now old).versions =
        if report.reachedRelease ∧ release ≠ "" then [⟨"operator", release⟩] else [] := rfl
    rw [hversions]
    split
    · next hreached => exact .inr ⟨rfl, hreached.2⟩
    · exact .inl rfl

/-! ### What the status says about being degraded -/

/-- What a report says about being degraded. -/
def StatusReport.degradedConditions (r : StatusReport) : List Condition :=
  r.conditions.filter (·.kind = .degraded)

theorem findCondition_guardProgress_of_ne {k : ConditionKind} (hk : k ≠ .available) :
    findCondition k (guardProgress now cs) = findCondition k cs := by
  unfold guardProgress
  split
  · exact findCondition_mergeCondition_of_ne now cs (Ne.symm hk)
  · rfl

/-- If a report says one thing about being degraded, so does the status. -/
theorem StatusReport.findCondition_degraded_applyTo (h : report.degradedConditions = [c]) :
    ∃ d, findCondition .degraded (report.applyTo release related now old).conditions = some d ∧
      d.SaysAs c := by
  obtain ⟨d, hd, hsays⟩ : ∃ d, findCondition .degraded
      (mergeConditions now report.conditions old.conditions) = some d ∧ d.SaysAs c :=
    findCondition_mergeConditions_of_filter_singleton h
  refine ⟨d, ?_, hsays⟩
  change findCondition .degraded (report.conditionsAfter now old.conditions) = some d
  rw [findCondition_conditionsAfter (by decide), findCondition_guardProgress_of_ne (by decide), hd]

/-! ### The status kind by kind -/

namespace StatusReport

/-- All that a cycle merges of one kind, whatever the status was before. -/
def said (report : StatusReport) (k : ConditionKind) : List Condition :=
  (report.conditions ++ [upgradeAllowed]).filter (·.kind = k)

theorem kind_of_mem_said {k : ConditionKind} (h : c ∈ report.said k) : c.kind = k := by
  simpa using (List.mem_filter.mp h).2

theorem said_of_ne {k : ConditionKind} (hk : k ≠ .upgradeable) :
    report.said k = report.conditions.filter (·.kind = k) := by
  have hdrop : [upgradeAllowed].filter (·.kind = k) = [] := by
    simpa [upgradeAllowed] using Ne.symm hk
  rw [said, List.filter_append, hdrop, List.append_nil]

theorem said_upgradeable (report : StatusReport) : report.said .upgradeable =
    report.conditions.filter (·.kind = .upgradeable) ++ [upgradeAllowed] :=
  List.filter_append ..

/-- A cycle merges into each kind but availability what it has to say of it. -/
theorem findCondition_conditionsAfter_of_ne {k : ConditionKind} (hk : k ≠ .available) :
    findCondition k (report.conditionsAfter now cs) =
      mergeFound now (report.said k) (findCondition k cs) := by
  have hguarded : findCondition k (guardProgress now (mergeConditions now report.conditions cs)) =
      mergeFound now (report.conditions.filter (·.kind = k)) (findCondition k cs) := by
    rw [findCondition_guardProgress_of_ne hk, findCondition_mergeConditions]
  by_cases hupgrade : k = .upgradeable
  · subst hupgrade
    rw [said_upgradeable, mergeFound_append_singleton, ← hguarded]
    exact findCondition_mergeCondition_self now upgradeAllowed _
  · rw [said_of_ne hupgrade, findCondition_conditionsAfter hupgrade, hguarded]

/-- Of availability a cycle merges what it has to say, or that the operator is starting up. -/
theorem findCondition_available_conditionsAfter :
    findCondition .available (report.conditionsAfter now cs) =
      if lacksAvailability (mergeConditions now report.conditions cs) then
        some (startingUp.mergedInto now none)
      else mergeFound now (report.said .available) (findCondition .available cs) := by
  rw [findCondition_conditionsAfter (by decide), guardProgress]
  split
  · next h =>
    have hnone : findCondition .available (mergeConditions now report.conditions cs) = none := by
      simp only [lacksAvailability, Bool.and_eq_true, Option.isNone_iff_eq_none] at h
      exact h.1
    rw [← hnone]
    exact findCondition_mergeCondition_self now startingUp _
  · rw [findCondition_mergeConditions, said_of_ne (by decide)]

/-- The operator is starting up only where nothing was and nothing is said of availability. -/
theorem said_available_of_lacksAvailability
    (h : lacksAvailability (mergeConditions now report.conditions cs) = true) :
    report.said .available = [] ∧ findCondition .available cs = none := by
  simp only [lacksAvailability, Bool.and_eq_true, Option.isNone_iff_eq_none,
    findCondition_mergeConditions] at h
  rw [said_of_ne (by decide)]
  cases hsaid : report.conditions.filter (·.kind = .available) with
  | nil => exact ⟨rfl, by simpa [hsaid] using h.1⟩
  | cons c rest =>
    obtain ⟨d, hd⟩ := exists_mergeFound_cons now c rest (findCondition .available cs)
    rw [hsaid, hd] at h
    cases h.1

end StatusReport

/-! ### The times in the status -/

theorem Instant.truncate_ne_unset (h : nanosPerSecond ≤ now.nanos.toInt) :
    now.truncate ≠ .unset := by
  intro hunset
  have hnow : 0 ≤ now.nanos.toInt := Int.le_trans (by decide) h
  have hlt := now.nanos.toInt_lt
  have hseconds : 1 ≤ now.seconds := Int.le_tdiv_of_mul_le (by decide) (by simpa using h)
  have hle : now.seconds * nanosPerSecond ≤ now.nanos.toInt := by
    rw [Int.mul_comm]
    exact Int.mul_tdiv_self_le hnow
  have hnanos : now.truncate.nanos.toInt = now.seconds * nanosPerSecond := by
    refine Int64.toInt_ofInt_of_le ?_ (Int.lt_of_le_of_lt hle hlt)
    simp only [nanosPerSecond]
    omega
  rw [hunset] at hnanos
  have hzero : (0 : Int) = now.seconds * nanosPerSecond := hnanos
  simp only [nanosPerSecond] at hzero
  omega

theorem Condition.transitionTime_ne_unset (hnow : now.truncate ≠ .unset) :
    c.transitionTime now ≠ .unset := by
  unfold transitionTime
  split
  · exact hnow
  · next h => simpa [Instant.isUnset] using h

theorem timed_mergeCondition (hnow : now.truncate ≠ .unset)
    (h : ∀ d ∈ cs, d.lastTransition ≠ .unset) :
    ∀ d ∈ mergeCondition now c cs, d.lastTransition ≠ .unset := by
  intro d hd
  rcases mem_mergeCondition hd with hd | rfl | ⟨old, hold, rfl⟩
  · exact h d hd
  · exact Condition.transitionTime_ne_unset hnow
  · simp only [Condition.mergedInto, Condition.replaceBy]
    split
    · exact h old hold
    · exact Condition.transitionTime_ne_unset hnow

theorem timed_guardProgress (hnow : now.truncate ≠ .unset)
    (h : ∀ d ∈ cs, d.lastTransition ≠ .unset) :
    ∀ d ∈ guardProgress now cs, d.lastTransition ≠ .unset := by
  unfold guardProgress
  split
  · exact timed_mergeCondition hnow h
  · exact h

/-- A cycle works out a status with all times from one that has them. -/
theorem StatusReport.timed_applyTo (hnow : now.truncate ≠ .unset) (h : old.Timed) :
    (report.applyTo release related now old).Timed :=
  timed_mergeCondition hnow <| timed_guardProgress hnow <|
    mergeConditions_induction (P := fun cs => ∀ d ∈ cs, d.lastTransition ≠ .unset)
      report.conditions h fun _ _ _ => timed_mergeCondition hnow

/-! ### Statuses that say the same -/

theorem ResourceStatus.findCondition_eq_of_same {a b : ResourceStatus} {k : ConditionKind}
    (h : a.same b = true) (hc : findCondition k a.conditions = some c) :
    findCondition k b.conditions = some c := by
  obtain ⟨hmem, hkind⟩ := mem_of_findCondition hc
  simp only [same, sameConditions, Bool.and_eq_true, List.all_eq_true, beq_iff_eq] at h
  have hfound := h.1.1.2 c hmem
  rwa [hkind] at hfound

theorem StatusReport.not_same_empty (report : StatusReport) (release : String)
    (related : List ObjectReference) (now : Instant) (old : ResourceStatus) :
    (report.applyTo release related now old).same {} = false := by
  have hlength : (report.conditionsAfter now old.conditions).length ≠ 0 := by
    rw [ne_eq, List.length_eq_zero_iff]
    exact mergeCondition_ne_nil now upgradeAllowed _
  simp [ResourceStatus.same, sameConditions, applyTo, hlength]

end OperatorHealth
