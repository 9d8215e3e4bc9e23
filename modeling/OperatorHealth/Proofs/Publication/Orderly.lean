import OperatorHealth.Proofs.Publication.Course
import OperatorHealth.Proofs.Publication.Reflection

/-!
# Cycles for orderly reports

The parts of an operator give orderly reports: of each kind they say one thing at most, without a
time, and of availability nothing but that it is there. A cycle for such a report merges at most one
condition into what it finds of each kind. So the time of a kind moves to the moment of the cycle if
the status of the kind changes, and stays otherwise; and once there is a word on availability, it
stays or becomes that the operator is available.

## Main definitions

* `StatusReport.IsOrderly`: reports of this kind.
* `KeepsTransitions`: the law of the times of transition.
* `UpholdsAvailability`: the law of the word on availability.

## Main results

* `StatusReport.IsOrderly.findCondition_conditionsAfter`: what a cycle makes of one kind.
* `CycleCourse.keepsTransitions`, `CycleCourse.upholdsAvailability`: the laws for every course.
-/

namespace OperatorHealth

variable {k : ConditionKind} {c d x : Condition} {cs before after : List Condition} {now : Instant}
  {report : StatusReport}

/-! ### Orderly reports -/

/-- The condition says that the operator is available, and no more about it. -/
def Condition.SaysAvailable (c : Condition) : Prop :=
  c.status = .true ∧ c.reason = "" ∧ c.message = ""

/-- A report says one thing of each kind at most, leaves it to the publisher whether upgrades are
allowed and when a status has changed, and says of availability only that it is there. -/
structure StatusReport.IsOrderly (report : StatusReport) : Prop extends report.IsPlain where
  untimed : ∀ c ∈ report.conditions, c.lastTransition = .unset
  available : ∀ c ∈ report.conditions, c.kind = .available → c.SaysAvailable

namespace StatusReport.IsOrderly

/-- A cycle has one condition of a kind to merge, or none. -/
theorem said_cases (h : report.IsOrderly) (k : ConditionKind) : report.said k = [] ∨
    ∃ c : Condition, report.said k = [c] ∧ c.lastTransition = .unset ∧
      (k = .available → c.SaysAvailable) := by
  have hnodup : ((report.conditions ++ [upgradeAllowed]).map (·.kind)).Nodup := by
    rw [List.map_append, List.nodup_append]
    refine ⟨h.nodup_kinds, List.nodup_singleton _, fun k hk k' hk' => ?_⟩
    obtain ⟨c, hc, rfl⟩ := List.mem_map.mp hk
    rw [List.map_singleton, List.mem_singleton] at hk'
    exact hk' ▸ h.not_upgradeable c hc
  cases hsaid : report.said k with
  | nil => exact .inl rfl
  | cons c rest =>
    obtain ⟨hc, hkind⟩ : c ∈ report.conditions ++ [upgradeAllowed] ∧ c.kind = k := by
      have hmem : c ∈ report.said k := hsaid ▸ List.mem_cons_self ..
      exact ⟨(List.mem_filter.mp hmem).1, kind_of_mem_said hmem⟩
    subst hkind
    have hone : report.said c.kind = [c] := filter_kind_eq_singleton hnodup hc
    refine .inr ⟨c, hsaid ▸ hone, ?_, fun hkind => ?_⟩
    all_goals rcases List.mem_append.mp hc with hc | hc
    · exact h.untimed c hc
    · rw [List.mem_singleton.mp hc]
      rfl
    · exact h.available c hc hkind
    · rw [List.mem_singleton.mp hc] at hkind
      cases hkind

/-- **What a cycle makes of one kind.** It leaves it as it is, or merges one condition into what it
finds. Of availability it says that it is there, or that the operator is starting up if nothing was
found. -/
theorem findCondition_conditionsAfter (h : report.IsOrderly) (now : Instant)
    (cs : List Condition) (k : ConditionKind) :
    findCondition k (report.conditionsAfter now cs) = findCondition k cs ∨
    ∃ c : Condition, c.lastTransition = .unset ∧
      (k = .available → c.SaysAvailable ∨ findCondition .available cs = none) ∧
      findCondition k (report.conditionsAfter now cs) =
        some (c.mergedInto now (findCondition k cs)) := by
  have hmerged : mergeFound now (report.said k) (findCondition k cs) = findCondition k cs ∨
      ∃ c : Condition, c.lastTransition = .unset ∧
        (k = .available → c.SaysAvailable ∨ findCondition .available cs = none) ∧
        mergeFound now (report.said k) (findCondition k cs) =
          some (c.mergedInto now (findCondition k cs)) := by
    rcases h.said_cases k with hsaid | ⟨c, hsaid, htime, havailable⟩ <;> rw [hsaid]
    · exact .inl rfl
    · exact .inr ⟨c, htime, fun hk => .inl (havailable hk), rfl⟩
  by_cases hk : k = .available
  · subst hk
    rw [findCondition_available_conditionsAfter]
    split
    · next hlacks =>
      have hnone := (said_available_of_lacksAvailability hlacks).2
      exact .inr ⟨startingUp, rfl, fun _ => .inr hnone, by rw [hnone]⟩
    · exact hmerged
  · rw [findCondition_conditionsAfter_of_ne hk]
    exact hmerged

end StatusReport.IsOrderly

/-! ### The law of the times of transition -/

/-- From `before` to `after` no kind of condition is lost. The time of a kind is the same if its
status is the same, and is the moment `now`, to the second, if its status has changed or the kind is
new. -/
structure KeepsTransitions (now : Instant) (before after : List Condition) : Prop where
  kept : ∀ k c, findCondition k before = some c → ∃ d, findCondition k after = some d ∧
    d.lastTransition = if d.status = c.status then c.lastTransition else now.truncate
  fresh : ∀ k d, findCondition k before = none → findCondition k after = some d →
    d.lastTransition = now.truncate

theorem KeepsTransitions.refl (now : Instant) (cs : List Condition) :
    KeepsTransitions now cs cs where
  kept _ c hc := ⟨c, hc, (if_pos rfl).symm⟩
  fresh k d hnone hd := by
    rw [hnone] at hd
    cases hd

/-- A condition without a time takes effect at the moment of the merge. -/
theorem Condition.lastTransition_mergedInto_none (h : c.lastTransition = .unset) :
    (c.mergedInto now none).lastTransition = now.truncate := by
  simp [mergedInto, transitionTime, h, Instant.isUnset]

theorem Condition.lastTransition_mergedInto_some (h : c.lastTransition = .unset) :
    (c.mergedInto now (some d)).lastTransition =
      if (c.mergedInto now (some d)).status = d.status then d.lastTransition
      else now.truncate := by
  simp [mergedInto, replaceBy, transitionTime, h, Instant.isUnset, eq_comm]

/-- **A cycle for an orderly report keeps the times of transition.** -/
theorem StatusReport.IsOrderly.keepsTransitions (h : report.IsOrderly) (now : Instant)
    (cs : List Condition) : KeepsTransitions now cs (report.conditionsAfter now cs) where
  kept k c hc := by
    rcases h.findCondition_conditionsAfter now cs k with hsame | ⟨x, htime, -, hmerged⟩
    · exact ⟨c, hsame.trans hc, (if_pos rfl).symm⟩
    · rw [hc] at hmerged
      exact ⟨_, hmerged, Condition.lastTransition_mergedInto_some htime⟩
  fresh k d hnone hd := by
    rcases h.findCondition_conditionsAfter now cs k with hsame | ⟨x, htime, -, hmerged⟩
    · cases (hsame.trans hnone).symm.trans hd
    · rw [hnone] at hmerged
      obtain rfl := Option.some.inj (hmerged.symm.trans hd)
      exact Condition.lastTransition_mergedInto_none htime

/-! ### The law of the word on availability -/

/-- As a word on availability `d` is no worse than `c`: what was available stays so, and nothing
becomes unavailable or starts up anew. -/
structure Condition.IsNoWorseThan (d c : Condition) : Prop where
  available : c.status = .true → d.status = .true
  not_down : d.status = .false → c.status = .false
  not_starting : d.reason = "Startup" → c.reason = "Startup"

theorem Condition.isNoWorseThan_of_saysAvailable (h : d.SaysAvailable) : d.IsNoWorseThan c := by
  obtain ⟨hstatus, hreason, -⟩ := h
  exact ⟨fun _ => hstatus, by simp [hstatus], by simp [hreason]⟩

/-- From `before` to `after` a word on availability stays, or becomes that the operator is
available. -/
def UpholdsAvailability (before after : List Condition) : Prop :=
  ∀ c, findCondition .available before = some c →
    ∃ d, findCondition .available after = some d ∧ (d = c ∨ d.SaysAvailable)

namespace UpholdsAvailability

protected theorem refl (cs : List Condition) : UpholdsAvailability cs cs :=
  fun c hc => ⟨c, hc, .inl rfl⟩

protected theorem trans (h : UpholdsAvailability before cs) (h' : UpholdsAvailability cs after) :
    UpholdsAvailability before after := by
  intro c hc
  obtain ⟨d, hd, hcd⟩ := h c hc
  obtain ⟨e, he, hde⟩ := h' d hd
  refine ⟨e, he, ?_⟩
  rcases hde with rfl | hde
  · exact hcd
  · exact .inr hde

theorem exists_isNoWorseThan (h : UpholdsAvailability before after)
    (hc : findCondition .available before = some c) :
    ∃ d, findCondition .available after = some d ∧ d.IsNoWorseThan c := by
  obtain ⟨d, hd, rfl | hsays⟩ := h c hc
  · exact ⟨d, hd, id, id, id⟩
  · exact ⟨d, hd, Condition.isNoWorseThan_of_saysAvailable hsays⟩

end UpholdsAvailability

/-- **A cycle for an orderly report upholds a word on availability.** -/
theorem StatusReport.IsOrderly.upholdsAvailability (h : report.IsOrderly) (now : Instant)
    (cs : List Condition) : UpholdsAvailability cs (report.conditionsAfter now cs) := by
  intro c hc
  rcases h.findCondition_conditionsAfter now cs .available with
    hsame | ⟨x, -, havailable, hmerged⟩
  · exact ⟨c, hsame.trans hc, .inl rfl⟩
  · rcases havailable rfl with hsays | hnone
    · refine ⟨_, hmerged, .inr ?_⟩
      rwa [Condition.SaysAvailable, Condition.status_mergedInto, Condition.reason_mergedInto,
        Condition.message_mergedInto]
    · cases hnone.symm.trans hc

/-! ### Courses -/

namespace CycleCourse

variable {name release : String} {related : List ObjectReference} {s t : MemoryStore}
  {outcome : Outcome} {calls : List CallRecord}

theorem keepsTransitions
    (h : CycleCourse name (report.applyTo release related now) s outcome calls t)
    (hreport : report.IsOrderly) : KeepsTransitions now (s.statusOf name).conditions
      (t.statusOf name).conditions := by
  rcases h.statusOf_cases with hsame | hnext
  · rw [hsame]
    exact .refl now _
  · rw [hnext]
    exact hreport.keepsTransitions now _

theorem upholdsAvailability
    (h : CycleCourse name (report.applyTo release related now) s outcome calls t)
    (hreport : report.IsOrderly) : UpholdsAvailability (s.statusOf name).conditions
      (t.statusOf name).conditions := by
  rcases h.statusOf_cases with hsame | hnext
  · rw [hsame]
    exact .refl _
  · rw [hnext]
    exact hreport.upholdsAvailability now _

end CycleCourse

end OperatorHealth
