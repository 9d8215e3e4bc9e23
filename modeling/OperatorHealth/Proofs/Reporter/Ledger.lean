import Mathlib.Data.List.Induction
import OperatorHealth.Proofs.Condition.Ledger
import OperatorHealth.Proofs.Publication.Status
import OperatorHealth.Reporter

/-!
# What a reporter says about being degraded

A reporter keeps the last word on each tier. A reason stands as long as no later signal concerns
its tier, and looking at the workloads concerns the tier of pods. The verdict on the signals so far
is the standing reason of the most important tier that has one, or that the operator is not
degraded. It is stated here without a ledger, and shown to be what the ledger shows and what the
reports carry.

## Main definitions

* `Signal.Concerns`, `Stands`, `Verdict`: the verdict on signals.
* `DegradedLedger.after`: the ledger after signals.

## Main results

* `DegradedLedger.verdict_shown`: the ledger shows the verdict.
* `Reporter.degradedConditions_answer`: a report carries what the ledger shows, once.
-/

namespace OperatorHealth

/-! ### The verdict on signals -/

/-- Whether a signal says something about a tier. -/
def Signal.Concerns (t : Tier) : Signal → Prop
  | degraded u _ _ => u = t
  | recovered u => u = t
  | workloads => t = .podDeployment

/-- A reason was given for a tier, and no later signal concerns that tier. -/
def Stands (t : Tier) (reason message : String) (signals : List Signal) : Prop :=
  ∃ earlier later, signals = earlier ++ .degraded t reason message :: later ∧
    ∀ signal ∈ later, ¬ signal.Concerns t

/-- The verdict on signals, as the status, the reason and the message of a condition. -/
inductive Verdict (signals : List Signal) : ConditionStatus → String → String → Prop
  /-- A reason stands, and none stands for a tier with a lower code. -/
  | degraded (t : Tier) {reason message : String} (hstands : Stands t reason message signals)
      (hlowest : ∀ u, u.code < t.code → ∀ reason' message', ¬ Stands u reason' message' signals) :
      Verdict signals .true reason message
  /-- No reason stands. -/
  | notDegraded (hclear : ∀ t reason message, ¬ Stands t reason message signals) :
      Verdict signals .false "" ""

section Stands

variable {t : Tier} {reason message : String} {signals : List Signal} {signal : Signal}

theorem not_stands_nil : ¬ Stands t reason message [] := by
  rintro ⟨earlier, later, heq, -⟩
  simp at heq

/-- A reason stands if the last signal gives it, or if it stood before and the last signal does not
concern its tier. -/
theorem stands_append_singleton : Stands t reason message (signals ++ [signal]) ↔
    signal = .degraded t reason message ∨
      ¬ signal.Concerns t ∧ Stands t reason message signals := by
  constructor
  · rintro ⟨earlier, later, heq, hlater⟩
    rcases later.eq_nil_or_concat with rfl | ⟨later, last, rfl⟩
    · obtain ⟨-, hsignal⟩ := List.append_inj' heq rfl
      exact .inl (List.singleton_inj.mp hsignal)
    · rw [List.concat_eq_append, ← List.cons_append, ← List.append_assoc] at heq
      obtain ⟨hsignals, hlast⟩ := List.append_inj' heq rfl
      obtain rfl := List.singleton_inj.mp hlast
      refine .inr ⟨hlater signal (by simp), earlier, later, hsignals, fun x hx => ?_⟩
      exact hlater x (by simp [hx])
  · rintro (rfl | ⟨hsignal, earlier, later, rfl, hlater⟩)
    · exact ⟨signals, [], rfl, by simp⟩
    · refine ⟨earlier, later ++ [signal], by simp, fun x hx => ?_⟩
      rcases List.mem_append.mp hx with hx | hx
      · exact hlater x hx
      · rw [List.mem_singleton.mp hx]
        exact hsignal

end Stands

/-! ### The ledger after signals -/

/-- The ledger after a signal. -/
def Signal.enter (l : DegradedLedger) : Signal → DegradedLedger
  | degraded t reason message =>
    l.set t (some { kind := .degraded, status := .true, reason, message })
  | recovered t => l.set t none
  | workloads => l.set .podDeployment none

namespace DegradedLedger

/-- The ledger after signals, when it was empty at first. -/
def after (signals : List Signal) : DegradedLedger := signals.foldl Signal.enter empty

theorem after_append_singleton (signals : List Signal) (signal : Signal) :
    after (signals ++ [signal]) = signal.enter (after signals) := by
  rw [after, List.foldl_append]
  rfl

variable {signals : List Signal} {t : Tier} {c : Condition}

/-- The entries of the ledger are the reasons that stand. -/
theorem entry_after_eq_some_iff : (after signals).entry t = some c ↔
    ∃ reason message, Stands t reason message signals ∧
      c = { kind := .degraded, status := .true, reason, message } := by
  induction signals using List.reverseRecOn with
  | nil => simp [after, empty, not_stands_nil]
  | append_singleton signals signal ih =>
    simp only [after_append_singleton, stands_append_singleton]
    -- a signal writes the entry of the tier that it concerns and no other
    cases signal with
    | degraded u reason message =>
      by_cases hu : u = t
      · subst hu
        simp [Signal.enter, set, Signal.Concerns, eq_comm]
      · simp [Signal.enter, set, Signal.Concerns, hu, Ne.symm hu, ih]
    | recovered u =>
      by_cases hu : u = t
      · subst hu
        simp [Signal.enter, set, Signal.Concerns]
      · simp [Signal.enter, set, Signal.Concerns, hu, Ne.symm hu, ih]
    | workloads =>
      by_cases hu : t = .podDeployment
      · simp [Signal.enter, set, Signal.Concerns, hu]
      · simp [Signal.enter, set, Signal.Concerns, hu, ih]

theorem entry_after_eq_none (h : (after signals).entry t = none) (reason message : String) :
    ¬ Stands t reason message signals := by
  intro hstands
  rw [entry_after_eq_some_iff.mpr ⟨reason, message, hstands, rfl⟩] at h
  cases h

theorem kind_shown_after (signals : List Signal) : (after signals).shown.kind = .degraded := by
  rcases (after signals).shown_cases with ⟨t, hentry, -⟩ | ⟨-, hshown⟩
  · obtain ⟨reason, message, -, hc⟩ := entry_after_eq_some_iff.mp hentry
    rw [hc]
  · rw [hshown]
    rfl

theorem lastTransition_shown_after (signals : List Signal) :
    (after signals).shown.lastTransition = .unset := by
  rcases (after signals).shown_cases with ⟨t, hentry, -⟩ | ⟨-, hshown⟩
  · obtain ⟨reason, message, -, hc⟩ := entry_after_eq_some_iff.mp hentry
    rw [hc]
  · rw [hshown]
    rfl

/-- **The ledger shows the verdict** on the signals it was told. -/
theorem verdict_shown (signals : List Signal) : Verdict signals (after signals).shown.status
    (after signals).shown.reason (after signals).shown.message := by
  rcases (after signals).shown_cases with ⟨t, hentry, hlowest⟩ | ⟨hnone, hshown⟩
  · obtain ⟨reason, message, hstands, hc⟩ := entry_after_eq_some_iff.mp hentry
    rw [hc]
    exact .degraded t hstands fun u hu => entry_after_eq_none (hlowest u hu)
  · rw [hshown]
    exact .notDegraded fun t => entry_after_eq_none (hnone t)

end DegradedLedger

/-! ### Reports -/

/-- The conditions on how far workloads are say nothing about being degraded. -/
theorem Rollout.filter_conditions (r : Rollout) :
    r.conditions.filter (·.kind = .degraded) = [] := by
  unfold Rollout.conditions
  split <;> rfl

namespace Reporter

variable {σ : Type}

theorem ledger_answer (r : Reporter σ) (signal : Signal) :
    (r.answer signal).1 = signal.enter r.ledger := by
  cases signal <;> rfl

/-- A report carries the condition that the ledger shows after the signal, and no other one about
being degraded. -/
theorem degradedConditions_answer {r : Reporter σ} {signal : Signal}
    (hkind : (signal.enter r.ledger).shown.kind = .degraded) :
    (r.answer signal).2.degradedConditions = [(signal.enter r.ledger).shown] := by
  obtain ⟨rest, hconditions, hrest⟩ : ∃ rest,
      (r.answer signal).2.conditions = (signal.enter r.ledger).shown :: rest ∧
        rest.filter (·.kind = .degraded) = [] := by
    cases signal with
    | degraded t reason message => exact ⟨[], rfl, rfl⟩
    | recovered t => exact ⟨[], rfl, rfl⟩
    | workloads => exact ⟨r.rollout.conditions, rfl, r.rollout.filter_conditions⟩
  rw [StatusReport.degradedConditions, hconditions, List.filter_cons_of_pos (by simpa using hkind),
    hrest]

end Reporter

end OperatorHealth
