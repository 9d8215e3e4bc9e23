import OperatorHealth.Proofs.Publication.Reflection
import OperatorHealth.Proofs.SharedPublisher.Accounting

/-!
# What a status says after a cycle

After a cycle that has not failed, the status of the resource is settled kind by kind, whether the
resource was created, updated or left alone. Upgrades are allowed. Of every other kind the status
says what the report has said of it last, and what the report does not speak of is as it was before,
with its time. Only availability may be added: if nothing is known of it and there is progress, the
operator is starting up. This holds for any report and any resource, also for lists in which a kind
occurs more than once.

## Main definitions

* `StatusReport.IsSilentOn`, `StatusReport.StartsUp`: what a report does not speak of, and when
  availability is added.
* `ResourceStatus.Fulfils`: what the status says, part by part.

## Main results

* `StatusReport.Leaves.conditions_eq`: a status that is left alone has the conditions that the cycle
  has worked out.
* `StatusReport.Leaves.fulfils`: what a cycle leaves of a status.
* `Publisher.fulfilled`: cycles of a publisher over a store in memory.
-/

namespace OperatorHealth

variable {k : ConditionKind} {c : Condition} {cs before after : List Condition} {now : Instant}
  {report : StatusReport} {release : String} {related : List ObjectReference}
  {old st : ResourceStatus}

/-- A report has nothing to say of a kind. -/
def StatusReport.IsSilentOn (report : StatusReport) (k : ConditionKind) : Prop :=
  ∀ c ∈ report.conditions, c.kind ≠ k

/-- Neither the report nor the status `old` says anything of availability, and `st` reports
progress. -/
def StatusReport.StartsUp (report : StatusReport) (old st : ResourceStatus) : Prop :=
  report.IsSilentOn .available ∧ findCondition .available old.conditions = none ∧
    ∃ c, findCondition .progressing st.conditions = some c ∧ c.status = .true

/-- The status `st` follows from `old` by a report, all of it. -/
structure ResourceStatus.Fulfils (report : StatusReport) (release : String)
    (related : List ObjectReference) (st old : ResourceStatus) : Prop where
  /-- Upgrades are allowed, whatever the report says of them. -/
  upgradeable : ∃ c, findCondition .upgradeable st.conditions = some c ∧
    c.status = .true ∧ c.reason = "" ∧ c.message = ""
  /-- Of every other kind the status says what the report says of it last. -/
  said : ∀ before c after, report.conditions = before ++ c :: after →
    (∀ d ∈ after, d.kind ≠ c.kind) → c.kind ≠ .upgradeable →
    ∃ d, findCondition c.kind st.conditions = some d ∧
      d.status = c.status ∧ d.reason = c.reason ∧ d.message = c.message
  startingUp : report.StartsUp old st → ∃ c, findCondition .available st.conditions = some c ∧
    c.status = .false ∧ c.reason = "Startup" ∧ c.message = "The operator is starting up"
  /-- What the report does not speak of is as it was, and also since when. -/
  kept : ∀ k, k ≠ .upgradeable → report.IsSilentOn k →
    (k = .available → ¬ report.StartsUp old st) →
    findCondition k st.conditions = findCondition k old.conditions
  versions : st.versions =
    if report.reachedRelease ∧ release ≠ "" then [⟨"operator", release⟩] else []
  related : st.relatedObjects.Perm related

/-! ### The conditions that a cycle works out -/

namespace StatusReport

theorem said_eq_nil_iff (hk : k ≠ .upgradeable) : report.said k = [] ↔ report.IsSilentOn k := by
  rw [said_of_ne hk, List.filter_eq_nil_iff, IsSilentOn]
  simp only [decide_eq_true_eq]

/-- What a report says of a kind ends with what it says of it last. -/
theorem said_eq_append_singleton (hreport : report.conditions = before ++ c :: after)
    (hlast : ∀ d ∈ after, d.kind ≠ c.kind) (hc : c.kind ≠ .upgradeable) :
    ∃ earlier, report.said c.kind = earlier ++ [c] := by
  have hafter : after.filter (·.kind = c.kind) = [] :=
    List.filter_eq_nil_iff.mpr fun d hd => by simpa using hlast d hd
  refine ⟨before.filter (·.kind = c.kind), ?_⟩
  rw [said_of_ne hc, hreport, List.filter_append, List.filter_cons_of_pos (by simp), hafter]

/-- The operator is starting up, as the status that is worked out tells. -/
theorem lacksAvailability_iff :
    lacksAvailability (mergeConditions now report.conditions cs) = true ↔
      report.IsSilentOn .available ∧ findCondition .available cs = none ∧
        ∃ c, findCondition .progressing (report.conditionsAfter now cs) = some c ∧
          c.status = .true := by
  have hprogressing : findCondition .progressing (report.conditionsAfter now cs) =
      findCondition .progressing (mergeConditions now report.conditions cs) := by
    rw [findCondition_conditionsAfter (by decide), findCondition_guardProgress_of_ne (by decide)]
  rw [← said_eq_nil_iff (by decide), hprogressing]
  constructor
  · intro h
    obtain ⟨hsaid, hnone⟩ := said_available_of_lacksAvailability h
    simp only [lacksAvailability, Bool.and_eq_true, Option.any_eq_true, beq_iff_eq] at h
    exact ⟨hsaid, hnone, h.2⟩
  · rintro ⟨hsaid, hnone, c, hc, hstatus⟩
    have havailable : findCondition .available (mergeConditions now report.conditions cs) =
        none := by
      rw [findCondition_mergeConditions, ← said_of_ne (by decide), hsaid, hnone, mergeFound_nil]
    simp [lacksAvailability, havailable, hc, hstatus]

/-- A kind of which the report speaks is found with what it says of it last. -/
theorem conveys_conditionsAfter_of_last (now : Instant) (cs : List Condition)
    (hreport : report.conditions = before ++ c :: after)
    (hlast : ∀ d ∈ after, d.kind ≠ c.kind) (hc : c.kind ≠ .upgradeable) :
    Conveys (report.conditionsAfter now cs) c := by
  obtain ⟨earlier, hsaid⟩ := said_eq_append_singleton hreport hlast hc
  have hmerged (found : Option Condition) : mergeFound now (report.said c.kind) found =
      some (c.mergedInto now (mergeFound now earlier found)) := by
    rw [hsaid, mergeFound_append_singleton]
  refine ⟨_, ?_, c.mergedInto_saysAs now (mergeFound now earlier (findCondition c.kind cs))⟩
  by_cases hkind : c.kind = .available
  · -- the guard does not speak of availability where the report does
    have hguard : lacksAvailability (mergeConditions now report.conditions cs) = false := by
      refine Bool.eq_false_iff.mpr fun h => ?_
      exact (lacksAvailability_iff.mp h).1 c (hreport ▸ by simp) hkind
    rw [← hmerged, hkind, findCondition_available_conditionsAfter, hguard,
      if_neg Bool.false_ne_true]
  · rw [← hmerged, findCondition_conditionsAfter_of_ne hkind]

/-- A kind of which the report does not speak is found as before, unless the operator is starting
up. -/
theorem findCondition_conditionsAfter_of_isSilentOn (hk : k ≠ .upgradeable)
    (hsilent : report.IsSilentOn k)
    (hguard : k = .available →
      lacksAvailability (mergeConditions now report.conditions cs) = false) :
    findCondition k (report.conditionsAfter now cs) = findCondition k cs := by
  have hsaid := (said_eq_nil_iff hk).mpr hsilent
  by_cases hkind : k = .available
  · subst hkind
    rw [findCondition_available_conditionsAfter, hguard rfl, if_neg Bool.false_ne_true, hsaid,
      mergeFound_nil]
  · rw [findCondition_conditionsAfter_of_ne hkind, hsaid, mergeFound_nil]

/-! ### What a cycle leaves of a status -/

namespace Leaves

/-- A status that is left alone has the conditions that the cycle has worked out. -/
theorem conditions_eq (h : report.Leaves release related now old st) :
    st.conditions = report.conditionsAfter now old.conditions := by
  rcases h with rfl | ⟨rfl, hsame⟩
  · rfl
  · exact (same_applyTo_iff.mp hsame).1.symm

/-- The operator is starting up just if the guard speaks of availability. -/
theorem startsUp_iff (h : report.Leaves release related now old st) : report.StartsUp old st ↔
    lacksAvailability (mergeConditions now report.conditions old.conditions) = true := by
  rw [StatusReport.StartsUp, h.conditions_eq, lacksAvailability_iff]

theorem versions_eq (h : report.Leaves release related now old st) :
    st.versions = publishedVersions release report.reachedRelease := by
  rcases h with rfl | ⟨rfl, hsame⟩
  · rfl
  · exact (same_applyTo_iff.mp hsame).2.1.symm

theorem perm_relatedObjects (h : report.Leaves release related now old st) :
    st.relatedObjects.Perm related := by
  rcases h with rfl | ⟨rfl, hsame⟩
  · exact .refl _
  · exact (same_applyTo_iff.mp hsame).2.2.1.symm

/-- **A cycle that does not fail leaves a status that does what the report asks for.** -/
theorem fulfils (h : report.Leaves release related now old st) :
    st.Fulfils report release related old where
  upgradeable := by
    rw [h.conditions_eq]
    exact ⟨_, findCondition_mergeCondition_self now upgradeAllowed _,
      upgradeAllowed.mergedInto_saysAs now _⟩
  said before c after hreport hlast hc := by
    rw [h.conditions_eq]
    exact conveys_conditionsAfter_of_last now old.conditions hreport hlast hc
  startingUp hstarts := by
    rw [h.conditions_eq, findCondition_available_conditionsAfter,
      if_pos (h.startsUp_iff.mp hstarts)]
    exact ⟨_, rfl, startingUp.mergedInto_saysAs now none⟩
  kept k hk hsilent hstarts := by
    rw [h.conditions_eq]
    refine findCondition_conditionsAfter_of_isSilentOn hk hsilent fun hkind => ?_
    exact Bool.eq_false_iff.mpr fun hlacks => hstarts hkind (h.startsUp_iff.mpr hlacks)
  versions := h.versions_eq
  related := h.perm_relatedObjects

end Leaves

end StatusReport

/-! ### Cycles over a store in memory -/

/-- **A cycle that does not fail leaves its resource with a status that does what its report asks
for**, whatever was there before, and leaves the resources of all other names as they were. -/
theorem Publisher.fulfilled (p : Publisher (ScriptedStore MemoryStore)) (now : Instant)
    (r : StatusReport)
    (h : (p.cycle now r).IsCounted .published ∨ (p.cycle now r).IsCounted .skipped) :
    (∃ st, (p.cycle now r).after.2.inner.find? p.name = some ⟨p.name, st⟩ ∧
      st.Fulfils r p.release p.related (p.store.inner.statusOf p.name)) ∧
    ∀ n, n ≠ p.name → (p.cycle now r).after.2.inner.find? n = p.store.inner.find? n := by
  obtain ⟨outcome, hcounted, hcourse⟩ := CycleCourse.of_cycle p now r
  have houtcome : outcome ≠ .failed := by
    rcases h with h | h <;> rw [hcounted.iff_eq.mp h] <;> decide
  obtain ⟨st, hst, hleaves⟩ := hcourse.stored houtcome
  refine ⟨⟨st, hst, StatusReport.Leaves.fulfils hleaves⟩, fun n hn => ?_⟩
  by_cases hpublished : outcome = .published
  · exact (hpublished ▸ hcourse).writes_of_published.2.2 n hn
  · exact (hcourse.sameContents hpublished).1.find?_eq n

/-- A publisher for a resource in which two kinds of condition occur twice. -/
def untidyPublisher : Publisher (ScriptedStore MemoryStore) where
  name := "network"
  release := "4.1.0"
  queue := { capacity := 5, capacity_pos := by decide }
  related := [⟨"", "pods", "", "network"⟩]
  store := { inner := { objects := [⟨"network", { conditions :=
    [{ kind := .progressing, status := .false }, { kind := .upgradeable, status := .false },
      { kind := .progressing, status := .unknown }, { kind := .upgradeable, status := .false }] }⟩,
    ⟨"dns", {}⟩] } }

/-- What is said of progress before the last word on it. -/
def halfSaid : List Condition :=
  [{ kind := .progressing, status := .true }, { kind := .degraded, status := .false },
    { kind := .progressing, status := .false }]

/-- The last word on progress. -/
def deploying : Condition := { kind := .progressing, status := .true, reason := "Deploying" }

/-- A report that says three things of progress. -/
def halting : StatusReport where
  conditions := halfSaid ++ [deploying]
  reachedRelease := true

theorem Publisher.fulfilled_untidy :
    (untidyPublisher.cycle (.ofSeconds 1) halting).IsCounted .published ∧
    ∃ st, (untidyPublisher.cycle (.ofSeconds 1) halting).after.2.inner.find? "network" =
        some ⟨"network", st⟩ ∧
      st.Fulfils halting "4.1.0" [⟨"", "pods", "", "network"⟩]
        (untidyPublisher.store.inner.statusOf "network") ∧
      halting.StartsUp (untidyPublisher.store.inner.statusOf "network") st := by
  have hpublished : (untidyPublisher.cycle (.ofSeconds 1) halting).IsCounted .published := by
    decide +kernel
  obtain ⟨⟨st, hst, hfulfils⟩, -⟩ := fulfilled untidyPublisher (.ofSeconds 1) halting
    (.inl hpublished)
  refine ⟨hpublished, st, hst, hfulfils, ?_⟩
  obtain ⟨c, hc, hstatus, -⟩ := hfulfils.said halfSaid deploying [] rfl nofun (by decide)
  exact ⟨by simp [halting, halfSaid, deploying, StatusReport.IsSilentOn], by decide +kernel, c, hc,
    hstatus⟩

end OperatorHealth
