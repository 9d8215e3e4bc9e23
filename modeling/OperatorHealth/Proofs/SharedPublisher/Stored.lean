import OperatorHealth.Proofs.SharedPublisher.InMemory

/-!
# What a shared publisher stores

A publisher that begins with an empty store in memory never stores more than its own resource, and
whatever is reported and whatever fails, the status of that resource is well formed at every moment.
Its conditions all have a time if the clock has passed its first second whenever a cycle is run.

## Main results

* `SharedPublisher.wellFormed_stored`: what is stored at every moment of a run.
-/

namespace OperatorHealth

namespace SharedPublisher

variable {ι : Type} [DecidableEq ι] {s₀ s : SharedPublisher ι (ScriptedStore MemoryStore)}
  {name release : String} {capacity : Nat} {related : List ObjectReference}
  {store : ScriptedStore MemoryStore} {es : List (Event ι (ScriptedStore MemoryStore))}

/-- **What is stored is well formed.** Threads start and stop a new publisher, hand over any reports
to it and set its related objects, in any order, over a store in memory that is empty at first and
whose calls fail in any pattern. At every moment nothing is stored, or only the resource of the
publisher, and that is well formed. If every cycle is run a second after the epoch or later, every
stored condition has the time of its last transition. -/
theorem wellFormed_stored (hnew : new? name release capacity related store = .ok s₀)
    (hrun : s₀.run? es = some s) (hes : OnlyInjections es) (hempty : store.inner.objects = []) :
    (s.publisher.store.inner.objects = [] ∨ ∃ status : ResourceStatus,
      status.WellFormed release ∧ s.publisher.store.inner.objects = [⟨name, status⟩]) ∧
    ((∀ now, Event.work now ∈ es → Instant.nanosPerSecond ≤ now.nanos.toInt) →
      ∀ r ∈ s.publisher.store.inner.objects, r.status.Timed) := by
  constructor
  · refine holdsOnly hnew hrun hes hempty fun now _ report related old hold => ?_
    refine report.wellFormed_applyTo ?_
    rcases hold with rfl | hold
    · exact List.nodup_nil
    · exact hold.nodup_kinds
  · intro hclock r hr
    have htimed := holdsOnly (Q := ResourceStatus.Timed) hnew hrun hes hempty
      fun now hnow report related old hold => by
        refine report.timed_applyTo (Instant.truncate_ne_unset (hclock now hnow)) ?_
        rcases hold with rfl | hold
        · exact fun c hc => absurd hc (List.not_mem_nil)
        · exact hold
    rcases htimed with hnil | ⟨status, hstatus, hone⟩
    · rw [hnil] at hr
      exact absurd hr (List.not_mem_nil)
    · rw [hone, List.mem_singleton] at hr
      rw [hr]
      exact hstatus

theorem wellFormed_stored_failingRun :
    ∃ s₀ s : SharedPublisher Unit (ScriptedStore MemoryStore),
      new? "network" "4.1.0" 8 [] failingStore = .ok s₀ ∧ s₀.run? failingRun = some s ∧
      ∃ status : ResourceStatus, status.WellFormed "4.1.0" ∧ status.Timed ∧
        s.publisher.store.inner.objects = [⟨"network", status⟩] := by
  obtain ⟨s₀, s, hnew, hrun, -, hlength⟩ := exists_failingRun
  obtain ⟨hshape, htimed⟩ := wellFormed_stored hnew hrun onlyInjections_failingRun rfl
  have hclock : ∀ now, Event.work now ∈ failingRun →
      Instant.nanosPerSecond ≤ now.nanos.toInt := by
    intro now hnow
    have hsecond : now = .ofSeconds 1 := by
      simpa [failingRun, failingRun.handled, Event.wholeCall] using hnow
    rw [hsecond]
    decide
  rcases hshape with hnil | ⟨status, hstatus, hone⟩
  · simp [hnil] at hlength
  · have hmem : ⟨"network", status⟩ ∈ s.publisher.store.inner.objects := by
      rw [hone]
      exact List.mem_singleton_self _
    exact ⟨s₀, s, hnew, hrun, status, hstatus, htimed hclock _ hmem, hone⟩

end SharedPublisher

end OperatorHealth
