import OperatorHealth.Proofs.Condition.Agreement
import OperatorHealth.Proofs.Publication.Reflection
import OperatorHealth.Proofs.Reporter.Ledger

/-!
# What reports on the workloads leave

Reporters that are alike, which is to say that they keep and see the same, give the same report on
the workloads. What they remember of failures of pods does not count.

A report on the workloads says something of every kind of condition but two: whether upgrades are
allowed is up to the publisher, and on availability it says nothing while a workload is on its way.
So two statuses that such a report is published to come to say the same, but for two things. While a
workload is on its way, an earlier word on availability stands. And where a kind of condition
occurred twice, a cycle brings the first one up to date and leaves the others behind it alone.

## Main definitions

* `Reporter.Alike`: reporters that keep and see the same.
* `ResourceStatus.IsAvailable`, `ResourceStatus.KeepsAvailability`: the word on availability.
* `ResourceStatus.Converged`: what two statuses have in common.

## Main results

* `Reporter.Alike.answer_eq`: the reports of reporters that are alike.
* `ResourceStatus.Reflects.mem_kinds`: a status that reflects a report on the workloads has every
  kind of condition.
* `StatusReport.Leaves.converged_answer`: two statuses that one such report was published to.
-/

namespace OperatorHealth

variable {k : ConditionKind} {c d : Condition}

/-! ### Reporters that are alike -/

namespace Reporter

variable {σ : Type} {r r' : Reporter σ} {signals : List Signal}

/-- Two reporters keep and see the same, but for the publisher at work and what they remember of
failures of pods. -/
structure Alike (r r' : Reporter σ) : Prop where
  name : r.publisher.name = r'.publisher.name
  release : r.publisher.release = r'.publisher.release
  related : r.publisher.related = r'.publisher.related
  inspector : r.inspector = r'.inspector
  daemonSets : r.daemonSets = r'.daemonSets
  deployments : r.deployments = r'.deployments
  clusterConfig : r.ledger.entry .clusterConfig = r'.ledger.entry .clusterConfig
  operatorConfig : r.ledger.entry .operatorConfig = r'.ledger.entry .operatorConfig

namespace Alike

protected theorem refl (r : Reporter σ) : r.Alike r := ⟨rfl, rfl, rfl, rfl, rfl, rfl, rfl, rfl⟩

protected theorem trans {r'' : Reporter σ} (h : r.Alike r') (h' : r'.Alike r'') : r.Alike r'' :=
  ⟨h.name.trans h'.name, h.release.trans h'.release, h.related.trans h'.related,
    h.inspector.trans h'.inspector, h.daemonSets.trans h'.daemonSets,
    h.deployments.trans h'.deployments, h.clusterConfig.trans h'.clusterConfig,
    h.operatorConfig.trans h'.operatorConfig⟩

theorem rollout_eq (h : r.Alike r') : r.rollout = r'.rollout := by
  rw [rollout, rollout, h.inspector, h.daemonSets, h.deployments, h.release]

/-- Reporters that are alike give the same report on the workloads. -/
theorem answer_eq (h : r.Alike r') : (r.answer .workloads).2 = (r'.answer .workloads).2 := by
  have hledger : r.ledger.set .podDeployment none = r'.ledger.set .podDeployment none := by
    refine congrArg DegradedLedger.mk (funext fun t => ?_)
    cases t with
    | clusterConfig => exact h.clusterConfig
    | operatorConfig => exact h.operatorConfig
    | podDeployment => rfl
  simp only [answer, h.rollout_eq, hledger]

end Alike

end Reporter

/-! ### Reports on the workloads -/

theorem Rollout.conditions_of_done {r : Rollout} (h : r.progressing = []) :
    r.conditions = [{ kind := .progressing, status := .false },
      { kind := .available, status := .true }] := if_pos h

/-- While a workload is on its way, nothing is said on availability. -/
theorem Rollout.filter_available_conditions {r : Rollout} (h : r.progressing ≠ []) :
    r.conditions.filter (·.kind = .available) = [] := by
  rw [conditions, if_neg h]
  rfl

theorem Rollout.exists_progressing_mem (r : Rollout) :
    ∃ c ∈ r.conditions, c.kind = .progressing ∧ (r.progressing ≠ [] → c.status = .true) := by
  unfold conditions
  split
  · next h => exact ⟨_, List.mem_cons_self .., rfl, fun hne => absurd h hne⟩
  · exact ⟨_, List.mem_cons_self .., rfl, fun _ => rfl⟩

namespace Reporter

variable {σ : Type} {r : Reporter σ} {signals : List Signal}

/-- The conditions of the report on the workloads. -/
theorem conditions_answer_workloads (r : Reporter σ) : (r.answer .workloads).2.conditions =
    (r.answer .workloads).1.shown :: r.rollout.conditions := rfl

theorem kind_shown_answer (h : r.ledger = .after signals) (signal : Signal) :
    (r.answer signal).1.shown.kind = .degraded := by
  rw [ledger_answer, h, ← DegradedLedger.after_append_singleton]
  exact DegradedLedger.kind_shown_after _

theorem isPlain_answer_workloads (h : r.ledger = .after signals) :
    (r.answer .workloads).2.IsPlain := by
  have hkind := kind_shown_answer h .workloads
  constructor <;> rw [conditions_answer_workloads, Rollout.conditions] <;> split <;>
    simp [hkind]

end Reporter

namespace ResourceStatus

variable {release : String} {related : List ObjectReference} {σ : Type} {r : Reporter σ}
  {signals : List Signal} {a b old st : ResourceStatus} {now : Instant}

/-- What a status that reflects a report on the workloads says of all kinds but availability is in
the report. -/
theorem Reflects.exists_conveys (release : String) (related : List ObjectReference)
    (hledger : r.ledger = .after signals) (hk : k ≠ .available) :
    ∃ c : Condition, c.kind = k ∧ ∀ st : ResourceStatus,
      st.Reflects (r.answer .workloads).2 release related → Conveys st.conditions c := by
  cases k with
  | available => exact absurd rfl hk
  | progressing =>
    obtain ⟨c, hc, hkind, -⟩ := r.rollout.exists_progressing_mem
    exact ⟨c, hkind, fun st h => h.conveys c (List.mem_cons_of_mem _ hc)⟩
  | degraded =>
    exact ⟨_, Reporter.kind_shown_answer hledger .workloads,
      fun st h => h.conveys _ (List.mem_cons_self ..)⟩
  | upgradeable => exact ⟨upgradeAllowed, rfl, fun st h => h.upgradeable⟩

/-- A status that reflects a report on the workloads has a condition of every kind. -/
theorem Reflects.mem_kinds (h : st.Reflects (r.answer .workloads).2 release related)
    (hledger : r.ledger = .after signals) (k : ConditionKind) :
    k ∈ st.conditions.map (·.kind) := by
  refine exists_findCondition_iff.mp ?_
  by_cases hk : k = .available
  · subst hk
    rcases lacksAvailability_eq_false_iff.mp h.guarded with hfound | hstill
    · exact hfound
    · -- without progress the report says something on availability
      by_cases hdone : r.rollout.progressing = []
      · obtain ⟨d, hd, -⟩ := h.conveys { kind := .available, status := .true }
          (List.mem_cons_of_mem _ (by rw [Rollout.conditions_of_done hdone]; simp))
        exact ⟨d, hd⟩
      · obtain ⟨c, hc, hkind, hstatus⟩ := r.rollout.exists_progressing_mem
        obtain ⟨d, hd, hsame⟩ := h.conveys c (List.mem_cons_of_mem _ hc)
        rw [hkind] at hd
        exact absurd (hsame.1.trans (hstatus hdone)) (hstill d hd)
  · obtain ⟨c, hkind, hconveys⟩ := Reflects.exists_conveys release related hledger hk
    obtain ⟨d, hd, -⟩ := hconveys st h
    exact ⟨d, hkind ▸ hd⟩

/-! ### Two statuses after a look at the workloads -/

/-- The status says that the operator is available, and no more about it. -/
def IsAvailable (st : ResourceStatus) : Prop :=
  ∃ c, findCondition .available st.conditions = some c ∧
    c.status = .true ∧ c.reason = "" ∧ c.message = ""

/-- The word on availability is that of the status `old`, or that the operator is starting up if
there was none. -/
def KeepsAvailability (old st : ResourceStatus) : Prop :=
  ∃ c, findCondition .available st.conditions = some c ∧
    (findCondition .available old.conditions = some c ∨
      findCondition .available old.conditions = none ∧ c.SaysAs startingUp)

/-- What two statuses have in common that were `old₁` and `old₂` before, where `isDone` says that no
workload is on its way. -/
structure Converged (isDone : Prop) (old₁ old₂ a b : ResourceStatus) : Prop where
  /-- They say the same of everything but availability. -/
  agree : ∀ k, k ≠ .available → AgreeOn k a.conditions b.conditions
  versions : a.versions = b.versions
  relatedObjects : a.relatedObjects.Perm b.relatedObjects
  /-- Both say that the operator is available if no workload is on its way. -/
  available : isDone → a.IsAvailable ∧ b.IsAvailable
  /-- Otherwise each keeps the word that it had on availability. -/
  kept : ¬ isDone → KeepsAvailability old₁ a ∧ KeepsAvailability old₂ b
  /-- If no kind occurred twice before, nothing but times, order and availability may differ. -/
  same_but_available : (old₁.conditions.map (·.kind)).Nodup →
    (old₂.conditions.map (·.kind)).Nodup →
    SameButForTimes (withoutAvailability a.conditions) (withoutAvailability b.conditions)
  /-- Nor may availability differ, unless a workload is on its way and there was a word on it. -/
  same : (old₁.conditions.map (·.kind)).Nodup → (old₂.conditions.map (·.kind)).Nodup →
    isDone ∨ findCondition .available old₁.conditions = none ∧
      findCondition .available old₂.conditions = none →
    SameButForTimes a.conditions b.conditions

theorem Reflects.agreeOn (ha : a.Reflects (r.answer .workloads).2 release related)
    (hb : b.Reflects (r.answer .workloads).2 release related) (hledger : r.ledger = .after signals)
    (hk : k ≠ .available) : AgreeOn k a.conditions b.conditions := by
  obtain ⟨c, rfl, hconveys⟩ := Reflects.exists_conveys release related hledger hk
  exact (hconveys a ha).agreeOn (hconveys b hb)

theorem Reflects.isAvailable (h : st.Reflects (r.answer .workloads).2 release related)
    (hdone : r.rollout.progressing = []) : st.IsAvailable := by
  obtain ⟨c, hc, hstatus, hreason, hmessage⟩ := h.conveys { kind := .available, status := .true }
    (List.mem_cons_of_mem _ (by rw [Rollout.conditions_of_done hdone]; simp))
  exact ⟨c, hc, hstatus, hreason, hmessage⟩

theorem IsAvailable.agreeOn (ha : a.IsAvailable) (hb : b.IsAvailable) :
    AgreeOn .available a.conditions b.conditions := by
  have hconveys {st : ResourceStatus} (h : st.IsAvailable) :
      Conveys st.conditions { kind := .available, status := .true } := h
  exact (hconveys ha).agreeOn (hconveys hb)

/-- Where there was no word on availability, both say that the operator is starting up. -/
theorem KeepsAvailability.agreeOn {old₁ old₂ : ResourceStatus} (ha : KeepsAvailability old₁ a)
    (hb : KeepsAvailability old₂ b) (h₁ : findCondition .available old₁.conditions = none)
    (h₂ : findCondition .available old₂.conditions = none) :
    AgreeOn .available a.conditions b.conditions := by
  have hstarting {old st : ResourceStatus} (h : KeepsAvailability old st)
      (hold : findCondition .available old.conditions = none) :
      Conveys st.conditions startingUp := by
    obtain ⟨c, hc, hkept | ⟨-, hsame⟩⟩ := h
    · cases hold.symm.trans hkept
    · exact ⟨c, hc, hsame⟩
  exact (hstarting ha h₁).agreeOn (hstarting hb h₂)

end ResourceStatus

namespace StatusReport.Leaves

open ResourceStatus

variable {release : String} {related : List ObjectReference} {σ : Type} {r : Reporter σ}
  {signals : List Signal} {a b old old₁ old₂ st : ResourceStatus} {now now₁ now₂ : Instant}

theorem keepsAvailability (h : (r.answer .workloads).2.Leaves release related now old st)
    (hledger : r.ledger = .after signals) (hdone : r.rollout.progressing ≠ []) :
    KeepsAvailability old st := by
  have hreflects := h.reflects (Reporter.isPlain_answer_workloads hledger)
  obtain ⟨c, hc⟩ := exists_findCondition_iff.mpr (hreflects.mem_kinds hledger .available)
  refine ⟨c, hc, h.findCondition_available ?_ hc⟩
  rw [Reporter.conditions_answer_workloads, List.filter_cons_of_neg
    (by simp [Reporter.kind_shown_answer hledger]), Rollout.filter_available_conditions hdone]

/-- What two cycles for one report on the workloads leave of two statuses. -/
theorem converged_answer (ha : (r.answer .workloads).2.Leaves release related now₁ old₁ a)
    (hb : (r.answer .workloads).2.Leaves release related now₂ old₂ b)
    (hledger : r.ledger = .after signals) :
    Converged (r.rollout.progressing = []) old₁ old₂ a b := by
  have hplain := Reporter.isPlain_answer_workloads hledger
  have hra := ha.reflects hplain
  have hrb := hb.reflects hplain
  have hagree : ∀ k, k ≠ .available → AgreeOn k a.conditions b.conditions :=
    fun k hk => hra.agreeOn hrb hledger hk
  have hkinds {old st now} (h : (r.answer .workloads).2.Leaves release related now old st)
      (hold : (old.conditions.map (·.kind)).Nodup) :
      (st.conditions.map (·.kind)).Perm ConditionKind.all :=
    perm_all_of_mem_kinds (h.nodup_kinds hold) ((h.reflects hplain).mem_kinds hledger)
  refine ⟨hagree, hra.versions.trans hrb.versions.symm,
    (perm_of_sameReferences hra.related).symm.trans (perm_of_sameReferences hrb.related),
    fun hdone => ⟨hra.isAvailable hdone, hrb.isAvailable hdone⟩,
    fun hdone => ⟨ha.keepsAvailability hledger hdone, hb.keepsAvailability hledger hdone⟩,
    fun h₁ h₂ => ?_, fun h₁ h₂ havailable => ?_⟩
  · refine sameButForTimes_of_agreeOn (ConditionKind.all.filter (· ≠ .available)) (by decide)
      ?_ ?_ fun k hk => ?_
    · rw [map_kind_withoutAvailability]
      exact (hkinds ha h₁).filter _
    · rw [map_kind_withoutAvailability]
      exact (hkinds hb h₂).filter _
    · have hne : k ≠ .available := by simpa using (List.mem_filter.mp hk).2
      obtain ⟨c, d, hc, hd, hsame⟩ := hagree k hne
      exact ⟨c, d, (findCondition_withoutAvailability hne _).trans hc,
        (findCondition_withoutAvailability hne _).trans hd, hsame⟩
  · refine sameButForTimes_of_agreeOn _ (by decide) (hkinds ha h₁) (hkinds hb h₂) fun k _ => ?_
    by_cases hk : k = .available
    · subst hk
      by_cases hdone : r.rollout.progressing = []
      · exact (hra.isAvailable hdone).agreeOn (hrb.isAvailable hdone)
      · obtain ⟨hnone₁, hnone₂⟩ := havailable.resolve_left hdone
        exact (ha.keepsAvailability hledger hdone).agreeOn (hb.keepsAvailability hledger hdone)
          hnone₁ hnone₂
    · exact hagree k hk

end StatusReport.Leaves

end OperatorHealth
