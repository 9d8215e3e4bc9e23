import Mathlib.Data.List.Induction
import OperatorHealth.Proofs.Condition.Merge

/-!
# Histories of merges

A merge has its say about one kind of condition. The kind is found afterwards with the status, the
reason and the message that were merged; its time is the one from before if the status is, and moves
otherwise. The conditions of all other kinds stay as they are, and in their order. To merge the same
once more changes nothing, whatever the clock shows.

So a list that was built by merges alone, each of them at a time of its own, tells of its history:
a kind is found just if something was merged of it, and it is found with what was merged of it last,
since the last time that its status turned.

## Main definitions

* `Merged`: what a merge makes of a list.
* `mergeSteps`: merges one after another, each at its own time.
* `lastOf`: the last step that is about a kind.
* `Recounts`: what a list tells of the merges that have built it.

## Main results

* `merged_mergeCondition`: one merge.
* `recounts_mergeSteps`: a history of merges.
* `merge_laws`: the laws of merges.
-/

namespace OperatorHealth

variable {k : ConditionKind} {c d old : Condition} {cs ds : List Condition} {now : Instant}
  {step : Instant × Condition} {steps : List (Instant × Condition)}

/-! ### One merge -/

/-- The list `ds` is `cs` after `c` was merged at `now`, by what is found in it and what is left
alone. -/
structure Merged (now : Instant) (c : Condition) (cs ds : List Condition) : Prop where
  said : ∃ d, findCondition c.kind ds = some d ∧
    d.status = c.status ∧ d.reason = c.reason ∧ d.message = c.message
  /-- As long as the status stays, so does the time. -/
  time_kept : ∀ old d, findCondition c.kind cs = some old → old.status = c.status →
    findCondition c.kind ds = some d → d.lastTransition = old.lastTransition
  /-- A new status, or a new kind, has the time that was merged, or else that of the clock. -/
  time_moved : ∀ d, (∀ old, findCondition c.kind cs = some old → old.status ≠ c.status) →
    findCondition c.kind ds = some d →
      d.lastTransition = if c.lastTransition = .unset then now.truncate else c.lastTransition
  found_elsewhere : ∀ k, k ≠ c.kind → findCondition k ds = findCondition k cs
  elsewhere : ds.filter (·.kind ≠ c.kind) = cs.filter (·.kind ≠ c.kind)
  length_eq : ds.length = if c.kind ∈ cs.map (·.kind) then cs.length else cs.length + 1
  nodup_kinds : (cs.map (·.kind)).Nodup → (ds.map (·.kind)).Nodup

theorem Condition.transitionTime_eq (now : Instant) (c : Condition) : c.transitionTime now =
    if c.lastTransition = .unset then now.truncate else c.lastTransition := by
  simp only [transitionTime, Instant.isUnset, beq_iff_eq]

theorem length_mergeCondition (now : Instant) (c : Condition) (cs : List Condition) :
    (mergeCondition now c cs).length =
      if c.kind ∈ cs.map (·.kind) then cs.length else cs.length + 1 := by
  have hkinds := congrArg List.length (map_kind_mergeCondition now c cs)
  rw [List.length_map] at hkinds
  rw [hkinds]
  split <;> simp

/-- The time that a merge leaves is the one from before just if the status is. -/
theorem lastTransition_mergedInto (now : Instant) (c : Condition) (found : Option Condition) :
    (∀ old, found = some old → old.status = c.status →
      (c.mergedInto now found).lastTransition = old.lastTransition) ∧
    ((∀ old, found = some old → old.status ≠ c.status) →
      (c.mergedInto now found).lastTransition = c.transitionTime now) := by
  cases found with
  | none => exact ⟨nofun, fun _ => rfl⟩
  | some old =>
    constructor
    · rintro old' hold hstatus
      obtain rfl := Option.some.inj hold
      exact if_pos hstatus
    · exact fun hturn => if_neg (hturn old rfl)

/-- **One merge.** -/
theorem merged_mergeCondition (now : Instant) (c : Condition) (cs : List Condition) :
    Merged now c cs (mergeCondition now c cs) := by
  have hself := findCondition_mergeCondition_self now c cs
  have htime := lastTransition_mergedInto now c (findCondition c.kind cs)
  have hfound {d : Condition} (h : findCondition c.kind (mergeCondition now c cs) = some d) :
      d = c.mergedInto now (findCondition c.kind cs) :=
    Option.some.inj (h.symm.trans hself)
  refine ⟨⟨_, hself, c.mergedInto_saysAs now _⟩, fun old d hold hstatus hd => ?_,
    fun d hturn hd => ?_, fun k hk => findCondition_mergeCondition_of_ne now cs (Ne.symm hk), ?_,
    length_mergeCondition now c cs, nodup_kinds_mergeCondition⟩
  · rw [hfound hd]
    exact htime.1 old hold hstatus
  · rw [hfound hd, ← Condition.transitionTime_eq]
    exact htime.2 hturn
  · exact filter_mergeCondition now cs (fun k => decide (k ≠ c.kind)) (by simp)

/-- What was merged is said, so merging it again changes nothing. -/
theorem mergeCondition_again (now₁ now₂ : Instant) (c : Condition) (cs : List Condition) :
    mergeCondition now₂ c (mergeCondition now₁ c cs) = mergeCondition now₁ c cs :=
  mergeCondition_eq_self now₂
    ⟨_, findCondition_mergeCondition_self now₁ c cs, c.mergedInto_saysAs now₁ _⟩

/-! ### Histories -/

/-- The list `cs` after conditions were merged, each at its own time. -/
def mergeSteps (steps : List (Instant × Condition)) (cs : List Condition) : List Condition :=
  steps.foldl (fun cs step => mergeCondition step.1 step.2 cs) cs

/-- The last step that is about a kind. -/
def lastOf (k : ConditionKind) (steps : List (Instant × Condition)) :
    Option (Instant × Condition) :=
  (steps.filter (·.2.kind = k)).getLast?

theorem mergeSteps_append_singleton (steps : List (Instant × Condition)) (cs : List Condition) :
    mergeSteps (steps ++ [step]) cs = mergeCondition step.1 step.2 (mergeSteps steps cs) := by
  rw [mergeSteps, List.foldl_append]
  rfl

theorem lastOf_append_of_eq (h : step.2.kind = k) : lastOf k (steps ++ [step]) = some step := by
  simp [lastOf, h]

theorem lastOf_append_of_ne (h : step.2.kind ≠ k) :
    lastOf k (steps ++ [step]) = lastOf k steps := by
  simp [lastOf, h]

/-- The kind of a step has turned with it: it has a status that it did not have right before, and
has kept it since. -/
structure TurnsAt (k : ConditionKind) (before : List (Instant × Condition)) (c : Condition)
    (after : List (Instant × Condition)) : Prop where
  kind_eq : c.kind = k
  turns : ∀ step, lastOf k before = some step → step.2.status ≠ c.status
  stays : ∀ step ∈ after, step.2.kind = k → step.2.status = c.status

/-- What a list tells of the merges that have built it. -/
structure Recounts (steps : List (Instant × Condition)) (cs : List Condition) : Prop where
  nodup_kinds : (cs.map (·.kind)).Nodup
  /-- A kind is found just if something was merged of it, and with what was merged of it last. -/
  said : ∀ k, Option.Rel (fun d step => d.status = step.2.status ∧ d.reason = step.2.reason ∧
    d.message = step.2.message) (findCondition k cs) (lastOf k steps)
  /-- It is found since its status has turned for the last time. -/
  since : ∀ k d, findCondition k cs = some d → ∃ before now c after,
    steps = before ++ (now, c) :: after ∧ TurnsAt k before c after ∧ d.status = c.status ∧
    d.lastTransition = if c.lastTransition = .unset then now.truncate else c.lastTransition

/-- The last turn stays the last one if the next step says the same status or is about another
kind. -/
theorem TurnsAt.append_singleton {before after : List (Instant × Condition)}
    (h : TurnsAt k before c after) (hstep : step.2.kind = k → step.2.status = c.status) :
    TurnsAt k before c (after ++ [step]) where
  kind_eq := h.kind_eq
  turns := h.turns
  stays later hlater hkind := by
    rcases List.mem_append.mp hlater with hlater | hlater
    · exact h.stays later hlater hkind
    · rw [List.mem_singleton.mp hlater] at hkind ⊢
      exact hstep hkind

theorem Recounts.append_singleton (h : Recounts steps cs) (step : Instant × Condition) :
    Recounts (steps ++ [step]) (mergeCondition step.1 step.2 cs) where
  nodup_kinds := nodup_kinds_mergeCondition h.nodup_kinds
  said k := by
    by_cases hk : step.2.kind = k
    · obtain ⟨d, hd, hsaid⟩ := (merged_mergeCondition step.1 step.2 cs).said
      rw [lastOf_append_of_eq hk, ← hk, hd]
      exact .some hsaid
    · rw [lastOf_append_of_ne hk, findCondition_mergeCondition_of_ne _ _ hk]
      exact h.said k
  since k d hd := by
    by_cases hk : step.2.kind = k
    · subst hk
      have hmerged := merged_mergeCondition step.1 step.2 cs
      have hstatus : d.status = step.2.status := by
        obtain ⟨e, he, hsaid⟩ := hmerged.said
        rw [Option.some.inj (hd.symm.trans he), hsaid.1]
      by_cases hturn : ∃ old, findCondition step.2.kind cs = some old ∧
          old.status = step.2.status
      · obtain ⟨old, hold, hsame⟩ := hturn
        obtain ⟨before, now, c, after, rfl, hturns, hc, htime⟩ := h.since _ old hold
        refine ⟨before, now, c, after ++ [step], by simp, ?_, ?_, ?_⟩
        · exact hturns.append_singleton fun _ => hsame.symm.trans hc
        · exact hstatus.trans (hsame.symm.trans hc)
        · rw [hmerged.time_kept old d hold hsame hd, htime]
      · have hturn' : ∀ old, findCondition step.2.kind cs = some old →
            old.status ≠ step.2.status := fun old hold hsame => hturn ⟨old, hold, hsame⟩
        refine ⟨steps, step.1, step.2, [], rfl, ⟨rfl, fun last hlast => ?_, by simp⟩, hstatus,
          hmerged.time_moved d hturn' hd⟩
        -- what was found before says what was merged of the kind last
        have hsaid := h.said step.2.kind
        rw [hlast] at hsaid
        cases hfound : findCondition step.2.kind cs with
        | none => rw [hfound] at hsaid; cases hsaid
        | some old =>
          rw [hfound] at hsaid
          cases hsaid with
          | some hsaid => rw [← hsaid.1]; exact hturn' old hfound
    · rw [findCondition_mergeCondition_of_ne _ _ hk] at hd
      obtain ⟨before, now, c, after, rfl, hturns, hc, htime⟩ := h.since k d hd
      exact ⟨before, now, c, after ++ [step], by simp,
        hturns.append_singleton fun hkind => absurd hkind hk, hc, htime⟩

/-- **A history of merges**, from the empty list on. -/
theorem recounts_mergeSteps (steps : List (Instant × Condition)) :
    Recounts steps (mergeSteps steps []) := by
  induction steps using List.reverseRecOn with
  | nil => exact ⟨List.nodup_nil, fun _ => .none, nofun⟩
  | append_singleton steps step ih =>
    rw [mergeSteps_append_singleton]
    exact ih.append_singleton step

/-- A kind that is said again for another reason is found since it was said first. -/
example : findCondition .degraded (mergeSteps
    [(.ofSeconds 1, { kind := .degraded, status := .true }),
      (.ofSeconds 2, { kind := .degraded, status := .false }),
      (.ofSeconds 3, { kind := .degraded, status := .false, reason := "AsExpected" })] []) =
    some {
      kind := .degraded
      status := .false
      lastTransition := .ofSeconds 2
      reason := "AsExpected" } := by
  decide +kernel

/-- **The laws of merges.** Merging a condition twice is merging it once, whatever the clock shows
then. A merge settles its own kind and leaves all others alone. And a list that was built by merges
holds no kind twice, and tells of each kind what was merged of it last, since its last turn. -/
theorem merge_laws (cs : List Condition) (c : Condition) (now₁ now₂ : Instant)
    (steps : List (Instant × Condition)) :
    mergeCondition now₂ c (mergeCondition now₁ c cs) = mergeCondition now₁ c cs ∧
    Merged now₁ c cs (mergeCondition now₁ c cs) ∧ Recounts steps (mergeSteps steps []) :=
  ⟨mergeCondition_again now₁ now₂ c cs, merged_mergeCondition now₁ c cs, recounts_mergeSteps steps⟩

end OperatorHealth
