import OperatorHealth.Publication

/-!
# What a cycle comes to

A cycle can be thrown off course at three calls, and is counted in one of two places: an error of
the store where the call was made, any other failure by the worker. Whichever way it goes, it comes
to one outcome, and that is what it adds to the tally.

## Main definitions

* `publish`: the outcome of a cycle, and the store after it.

## Main results

* `runCycle_eq`: a cycle adds its outcome to the tally, once.
-/

namespace OperatorHealth

variable {σ : Type}

/-- The outcome of a write, and the store after it. -/
def Outcome.ofWrite : Except StoreFault Unit × σ → Outcome × σ
  | (.ok _, s) => (.published, s)
  | (.error _, s) => (.failed, s)

theorem Outcome.ofWrite_ne_skipped (result : Except StoreFault Unit × σ) :
    (Outcome.ofWrite result).1 ≠ .skipped := by
  rcases result with ⟨fault | ok, s⟩ <;> simp [Outcome.ofWrite]

theorem countFault_countWrite (tally : Tally) (result : Except StoreFault Unit × σ) :
    countFault (countWrite tally result) =
      (tally.count (Outcome.ofWrite result).1, (Outcome.ofWrite result).2) := by
  rcases result with ⟨fault | ok, s⟩
  · cases fault <;> rfl
  · rfl

variable [ResourceStore σ]

/-- The outcome of a cycle, and the store after it. -/
def publish (name release : String) (related : List ObjectReference) (now : Instant)
    (report : StatusReport) (s : σ) : Outcome × σ :=
  match ResourceStore.get name s with
  | (.ok old, s) =>
    let status := report.applyTo release related now old.status
    if status.same old.status then (.skipped, s)
    else Outcome.ofWrite (ResourceStore.replaceStatus { old with status } s)
  | (.error (.store (.notFound _)), s) =>
    let status := report.applyTo release related now {}
    if status.same {} then (.skipped, s)
    else Outcome.ofWrite (ResourceStore.create { name, status } s)
  | (.error _, s) => (.failed, s)

/-- **A cycle is counted once.** It adds its outcome to the tally, whether a failure is counted
where it comes up or by the worker. -/
theorem runCycle_eq (name release : String) (related : List ObjectReference) (now : Instant)
    (report : StatusReport) (tally : Tally) (s : σ) :
    runCycle name release related now report tally s =
      (tally.count (publish name release related now report s).1,
        (publish name release related now report s).2) := by
  unfold runCycle attempt publish
  rcases ResourceStore.get name s with ⟨fault | old, t⟩
  · cases fault with
    | store error =>
      cases error with
      | notFound n =>
        dsimp only
        split
        · rfl
        · exact countFault_countWrite tally _
      | _ => rfl
    | _ => rfl
  · dsimp only
    split
    · rfl
    · exact countFault_countWrite tally _

end OperatorHealth
