import OperatorHealth.Proofs.Condition.Turn
import OperatorHealth.Proofs.Publication.Reflection

/-!
# The status worked out from a report twice

A status that was worked out from a report is the old status of a second cycle for the same report.
What the second cycle works out differs from it at most in the times of those kinds of which the
report says two things: such a kind turns in each cycle, and its last turn takes effect at the
moment of the cycle, if the condition does not come with a time of its own. That upgrades are
allowed counts as said last.

## Main definitions

* `StatusReport.KeepsTimes`: the last turns of a report take effect at the times that are there.
* `StatusReport.IsReadBack`: a status is one that was worked out from a report.

## Main results

* `StatusReport.forall_keepsTimes_iff`: the reports that keep their times whatever the clock shows.
* `StatusReport.IsReadBack.same_applyTo_again_iff`: the status that a second cycle works out.
-/

namespace OperatorHealth

/-! ### The times of turns -/

namespace StatusReport

variable {report : StatusReport} {f : Instant → Instant} {now₁ now₂ : Instant}

/-- Of every kind, the last condition that turns takes effect at the same time in a cycle at `now₁`,
whose times are mapped by `f` when they are read back, and in a cycle at `now₂`. -/
def KeepsTimes (report : StatusReport) (f : Instant → Instant) (now₁ now₂ : Instant) : Prop :=
  ∀ k, ∀ t ∈ lastTurn (report.said k), f (t.transitionTime now₁) = t.transitionTime now₂

/-- A report that says one status of each kind keeps all times. -/
theorem keepsTimes_of_lastTurn_eq_none (h : ∀ k, lastTurn (report.said k) = none)
    (f : Instant → Instant) (now₁ now₂ : Instant) : report.KeepsTimes f now₁ now₂ := by
  intro k t ht
  rw [h k] at ht
  cases ht

/-- Within a second all times are kept. -/
theorem keepsTimes_of_truncate_eq (h : now₁.truncate = now₂.truncate) :
    report.KeepsTimes id now₁ now₂ := by
  intro k t _
  rw [id, Condition.transitionTime, Condition.transitionTime, h]

/-- Whatever the clock shows, times are kept just if the last turns come with times of their own. -/
theorem forall_keepsTimes_iff : (∀ now₁ now₂, report.KeepsTimes id now₁ now₂) ↔
    ∀ k, ∀ t ∈ lastTurn (report.said k), t.lastTransition.isUnset = false := by
  constructor
  · intro h k t ht
    by_contra hunset
    have htime := h (.ofSeconds 1) (.ofSeconds 2) k t ht
    rw [Bool.not_eq_false] at hunset
    simp only [id, Condition.transitionTime, hunset, if_true] at htime
    exact absurd htime (by decide)
  · intro h now₁ now₂ k t ht
    simp [Condition.transitionTime, h k t ht]

/-! ### The status that a second cycle works out -/

variable {release : String} {related : List ObjectReference} {k : ConditionKind}
  {old st : ResourceStatus}

/-- The status says of each kind what a cycle at `now₁` has worked out, with its time mapped. -/
def IsReadBack (report : StatusReport) (f : Instant → Instant) (now₁ : Instant)
    (old st : ResourceStatus) : Prop :=
  ∀ k, findCondition k st.conditions =
    (findCondition k (report.conditionsAfter now₁ old.conditions)).map (·.mapTime f)

/-- What a cycle leaves of a kind of which it has something to say. -/
theorem findCondition_conditionsAfter_of_said (h : report.said k ≠ []) (now : Instant)
    (cs : List Condition) : findCondition k (report.conditionsAfter now cs) =
      mergeFound now (report.said k) (findCondition k cs) := by
  by_cases hk : k = .available
  · subst hk
    rw [findCondition_available_conditionsAfter, if_neg fun hlacks =>
      h (said_available_of_lacksAvailability hlacks).1]
  · exact findCondition_conditionsAfter_of_ne hk

/-- The second cycle has no need to say that the operator is starting up. -/
theorem IsReadBack.lacksAvailability_eq_false (h : report.IsReadBack f now₁ old st)
    (now₂ : Instant) :
    lacksAvailability (mergeConditions now₂ report.conditions st.conditions) = false := by
  refine lacksAvailability_eq_false_iff.mpr ?_
  rcases lacksAvailability_eq_false_iff.mp
    (lacksAvailability_conditionsAfter report now₁ old.conditions) with ⟨c, hc⟩ | hstill
  · have hfound : findCondition .available st.conditions = some (c.mapTime f) := by
      rw [h, hc, Option.map_some]
    exact .inl (exists_findCondition_iff.mpr
      (mem_kinds_mergeConditions _ (exists_findCondition_iff.mp ⟨_, hfound⟩)))
  · -- progress is reported as it was in the first cycle
    refine .inr fun e he => ?_
    rw [findCondition_mergeConditions, ← said_of_ne (by decide)] at he
    have hleft : findCondition .progressing (report.conditionsAfter now₁ old.conditions) =
        mergeFound now₁ (report.said .progressing) (findCondition .progressing old.conditions) :=
      findCondition_conditionsAfter_of_ne (by decide)
    cases hd : findCondition .progressing (report.conditionsAfter now₁ old.conditions) with
    | some d =>
      rw [h, hd] at he
      rw [hd] at hleft
      rw [(saysAs_of_mergeFound_again hleft.symm he ⟨rfl, rfl, rfl⟩).1]
      exact hstill d hd
    | none =>
      rw [h, hd] at he
      rw [hd] at hleft
      cases hsaid : report.said .progressing with
      | nil =>
        rw [hsaid] at he
        cases he
      | cons c rest =>
        obtain ⟨d, hd'⟩ :=
          exists_mergeFound_cons now₁ c rest (findCondition .progressing old.conditions)
        rw [hsaid, hd'] at hleft
        cases hleft

/-- A kind stays as it is in the second cycle if its last turn takes effect at the time that is
there. -/
theorem IsReadBack.findCondition_eq_iff (h : report.IsReadBack f now₁ old st) (now₂ : Instant)
    (k : ConditionKind) :
    findCondition k (report.conditionsAfter now₂ st.conditions) = findCondition k st.conditions ↔
      ∀ t ∈ lastTurn (report.said k), f (t.transitionTime now₁) = t.transitionTime now₂ := by
  have hagain : findCondition k (report.conditionsAfter now₂ st.conditions) =
      mergeFound now₂ (report.said k) (findCondition k st.conditions) := by
    by_cases hk : k = .available
    · subst hk
      rw [findCondition_available_conditionsAfter, h.lacksAvailability_eq_false,
        if_neg Bool.false_ne_true]
    · exact findCondition_conditionsAfter_of_ne hk
  rw [hagain]
  cases hsaid : report.said k with
  | nil => simp [lastTurn]
  | cons c rest =>
    obtain ⟨e, he⟩ := exists_mergeFound_cons now₁ c rest (findCondition k old.conditions)
    have hfound : findCondition k st.conditions = some (e.mapTime f) := by
      rw [h, findCondition_conditionsAfter_of_said (by simp [hsaid]), hsaid, he, Option.map_some]
    have hkinds : ∀ d ∈ c :: rest, d.kind = k := fun d hd => kind_of_mem_said (hsaid ▸ hd)
    rw [hfound, mergeFound_again_iff hkinds (fun d hd => (mem_of_findCondition hd).2) he]
    rfl

/-- **The status that a second cycle works out** says what is there already just if its last turns
take effect at the times that are there. -/
theorem IsReadBack.same_applyTo_again_iff (h : report.IsReadBack f now₁ old st)
    (hnodup : (st.conditions.map (·.kind)).Nodup)
    (hversions : st.versions = publishedVersions release report.reachedRelease)
    (hrelated : sameReferences related st.relatedObjects = true) (now₂ : Instant) :
    (report.applyTo release related now₂ st).same st = true ↔ report.KeepsTimes f now₁ now₂ := by
  have hconditions : sameConditions (report.conditionsAfter now₂ st.conditions) st.conditions =
      true ↔ ∀ k, findCondition k (report.conditionsAfter now₂ st.conditions) =
        findCondition k st.conditions :=
    sameConditions_eq_true_iff (nodup_kinds_conditionsAfter hnodup) hnodup
  simp only [ResourceStatus.same, applyTo, sameVersions_publishedVersions.mpr hversions, hrelated,
    Bool.and_true, hconditions, h.findCondition_eq_iff]
  rfl

end StatusReport

end OperatorHealth
