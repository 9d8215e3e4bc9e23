import OperatorHealth.Proofs.SharedPublisher.InMemory
import OperatorHealth.Proofs.SharedPublisher.Serialization

/-!
# Cycles are accounted for, and fail as a whole

Every report that the worker takes from the queue is counted once, in one way, whatever fails and
wherever. A cycle that counts as published has written its resource once. Any other cycle leaves
what is stored as it was, also one that was told that its resource is not there although it is.
So the tally of published cycles is the number of writes that the store has seen.

## Main definitions

* `Cycle.Accounted`: what is asked of a cycle.
* `Tally.number`, `Tally.total`: the number of cycles with an outcome, and of all cycles.

## Main results

* `SharedPublisher.number_eq`, `SharedPublisher.total_eq`: the tally counts every cycle once.
* `SharedPublisher.writes_eq`, `SharedPublisher.creates_le_one`: the tally and the counts of the
  store.
* `SharedPublisher.accounted`: all of this at every moment of a run.
-/

namespace OperatorHealth

/-! ### Tallies -/

namespace Tally

/-- The number of cycles with an outcome. -/
def number (t : Tally) : Outcome → Nat
  | .published => t.published
  | .skipped => t.skipped
  | .failed => t.failed

theorem number_count (t : Tally) (o o' : Outcome) :
    (t.count o).number o' = t.number o' + if o = o' then 1 else 0 := by
  cases o <;> cases o' <;> rfl

/-- The number of cycles, whatever their outcome. -/
def total (t : Tally) : Nat := t.published + t.skipped + t.failed

theorem total_count (t : Tally) (o : Outcome) : (t.count o).total = t.total + 1 := by
  cases o <;> simp only [count, total] <;> omega

theorem count_injective (t : Tally) : Function.Injective t.count := by
  intro o o' h
  have hnumber := congrArg (fun t : Tally => t.number o) h
  simp only [number_count, if_true] at hnumber
  by_contra hne
  rw [if_neg (Ne.symm hne)] at hnumber
  omega

end Tally

/-! ### Single cycles -/

section Cycle

variable {σ : Type} {c : Cycle σ} {o o' : Outcome}

theorem Cycle.IsCounted.iff_eq (h : c.IsCounted o) : c.IsCounted o' ↔ o = o' := by
  constructor
  · intro h'
    exact Tally.count_injective c.before.1 (h.symm.trans h')
  · rintro rfl
    exact h

/-- The calls of a cycle that wrote a resource. -/
def Cycle.writes (c : Cycle (ScriptedStore σ)) : List CallRecord := c.calls.filter (·.isWrite)

/-- Whether a cycle was told that its resource is not there. -/
def Cycle.ToldNotFound (c : Cycle (ScriptedStore σ)) : Prop :=
  ∃ k ∈ c.calls, k.call = .get ∧ ∃ n, k.fault = some (.store (.notFound n))

end Cycle

/-- What is asked of a cycle for the resource called `name`. -/
structure Cycle.Accounted (name : String) (c : Cycle (ScriptedStore MemoryStore)) : Prop where
  /-- It is counted as one outcome, once. -/
  counted : ∃! o, c.IsCounted o
  /-- Unless it counts as published, nothing is written and everything stored is as it was. -/
  unchanged : c.IsCounted .skipped ∨ c.IsCounted .failed →
    c.writes = [] ∧ c.after.2.inner.SameContents c.before.2.inner
  /-- If it counts as published, its resource was created or updated once, and no other was. -/
  written : c.IsCounted .published →
    (∃ call, (call = .create ∨ call = .update) ∧ c.writes = [⟨call, name, none⟩]) ∧
      c.after.2.inner.writes = c.before.2.inner.writes + 1 ∧
      ∀ n, n ≠ name → c.after.2.inner.find? n = c.before.2.inner.find? n
  /-- It does not count as skipped when it was told that the resource is not there. -/
  not_skipped : c.ToldNotFound → ¬ c.IsCounted .skipped
  /-- It does not overwrite a resource that it was wrongly told is not there. -/
  not_overwritten : c.ToldNotFound → ∀ old, c.before.2.inner.find? name = some old →
    c.after.2.inner.SameContents c.before.2.inner

theorem CycleCourse.accounted_cycle {name : String} {next : ResourceStatus → ResourceStatus}
    {o : Outcome} {c : Cycle (ScriptedStore MemoryStore)} (hcounted : c.IsCounted o)
    (h : CycleCourse name next c.before.2.inner o c.calls c.after.2.inner) :
    c.Accounted name where
  counted := ⟨o, hcounted, fun o' ho' => (hcounted.iff_eq.mp ho').symm⟩
  unchanged ho := by
    have hne : o ≠ .published := by
      rcases ho with ho | ho <;> rw [hcounted.iff_eq.mp ho] <;> decide
    exact ⟨(h.sameContents hne).2, (h.sameContents hne).1⟩
  written ho := by
    obtain rfl := hcounted.iff_eq.mp ho
    exact h.writes_of_published
  not_skipped htold ho := (h.of_notFound htold).1 (hcounted.iff_eq.mp ho)
  not_overwritten htold := (h.of_notFound htold).2

namespace SharedPublisher

/-! ### The tally and the cycles -/

section Tally

variable {ι σ : Type} [DecidableEq ι] [ResourceStore σ] {s₀ s s' : SharedPublisher ι σ}
  {e : Event ι σ} {name release : String} {capacity : Nat} {related : List ObjectReference}
  {store : σ} {es : List (Event ι σ)}

theorem Step.number_eq (h : s.Step e s')
    (hs : ∀ o, s.publisher.tally.number o = s.cycles.countP fun c => decide (c.IsCounted o))
    (o : Outcome) :
    s'.publisher.tally.number o = s'.cycles.countP fun c => decide (c.IsCounted o) := by
  rcases h.books with ⟨hcycles, htally, -⟩ | ⟨f, -, hcycles, htally, -⟩ |
    ⟨now, r, -, -, hcycles, hafter⟩ <;> rw [hcycles]
  · rw [htally]
    exact hs o
  · rw [htally]
    exact hs o
  · have hcounted : (s.publisher.cycle now r).IsCounted _ :=
      s.publisher.isCounted_cycle now r
    have htally := (congrArg Prod.fst hafter).trans hcounted
    dsimp only [Publisher.cycle] at htally
    rw [htally, Tally.number_count, hs o, List.countP_append, List.countP_singleton]
    simp only [hcounted.iff_eq, decide_eq_true_eq]

/-- **The tally counts every cycle once.** It says for each outcome how many of the cycles that
were run are counted as it. -/
theorem number_eq (hnew : new? name release capacity related store = .ok s₀)
    (hrun : s₀.run? es = some s) (o : Outcome) :
    s.publisher.tally.number o = s.cycles.countP fun c => decide (c.IsCounted o) := by
  refine run?_induction (P := fun s => ∀ o, s.publisher.tally.number o =
    s.cycles.countP fun c => decide (c.IsCounted o)) hrun ?_ (fun e _ t t' h => h.number_eq) o
  obtain ⟨queue, -, -, -, rfl⟩ := eq_of_new? hnew
  intro o
  cases o <;> rfl

theorem Step.total_eq (h : s.Step e s') (hs : s.publisher.tally.total = s.cycles.length) :
    s'.publisher.tally.total = s'.cycles.length := by
  rcases h.books with ⟨hcycles, htally, -⟩ | ⟨f, -, hcycles, htally, -⟩ |
    ⟨now, r, -, -, hcycles, hafter⟩
  · rw [hcycles, htally, hs]
  · rw [hcycles, htally, hs]
  · have hcounted : (s.publisher.cycle now r).IsCounted _ :=
      s.publisher.isCounted_cycle now r
    have htally := (congrArg Prod.fst hafter).trans hcounted
    dsimp only [Publisher.cycle] at htally
    rw [htally, Tally.total_count, hs, hcycles, List.length_append, List.length_singleton]

/-- The tally counts as many cycles as were run. -/
theorem total_eq (hnew : new? name release capacity related store = .ok s₀)
    (hrun : s₀.run? es = some s) : s.publisher.tally.total = s.cycles.length := by
  refine run?_induction (P := fun s => s.publisher.tally.total = s.cycles.length) hrun ?_
    fun e _ t t' h => h.total_eq
  obtain ⟨queue, -, -, -, rfl⟩ := eq_of_new? hnew
  rfl

/-- Every cycle that was run is counted as one outcome. -/
theorem existsUnique_isCounted (hnew : new? name release capacity related store = .ok s₀)
    (hrun : s₀.run? es = some s) : ∀ c ∈ s.cycles, ∃! o, c.IsCounted o := by
  refine run?_induction (P := fun s => ∀ c ∈ s.cycles, ∃! o, c.IsCounted o) hrun ?_
    fun e _ t t' h ht c hc => ?_
  · obtain ⟨queue, -, -, -, rfl⟩ := eq_of_new? hnew
    simp
  · rcases h.books with ⟨hcycles, -⟩ | ⟨f, -, hcycles, -⟩ | ⟨now, r, -, -, hcycles, -⟩ <;>
      rw [hcycles] at hc
    · exact ht c hc
    · exact ht c hc
    · rcases List.mem_append.mp hc with hc | hc
      · exact ht c hc
      · obtain rfl := List.mem_singleton.mp hc
        have hcounted : (t.publisher.cycle now r).IsCounted _ :=
          t.publisher.isCounted_cycle now r
        exact ⟨_, hcounted, fun o ho => (hcounted.iff_eq.mp ho).symm⟩

end Tally

/-! ### The tally and the store -/

section Store

variable {ι : Type} [DecidableEq ι] {s₀ s : SharedPublisher ι (ScriptedStore MemoryStore)}
  {name release : String} {capacity : Nat} {related : List ObjectReference}
  {store : ScriptedStore MemoryStore} {es : List (Event ι (ScriptedStore MemoryStore))}

theorem accounted_of_mem_cycles (hnew : new? name release capacity related store = .ok s₀)
    (hrun : s₀.run? es = some s) : ∀ c ∈ s.cycles, c.Accounted name := by
  intro c hc
  obtain ⟨_, o, hcounted, hcourse⟩ := course_of_mem_cycles hnew hrun c hc
  exact hcourse.accounted_cycle hcounted

/-- The cycles that count as published are the writes that the store has seen. -/
theorem writes_eq (hnew : new? name release capacity related store = .ok s₀)
    (hrun : s₀.run? es = some s) (hes : OnlyInjections es) :
    s.publisher.store.inner.writes = store.inner.writes + s.publisher.tally.published := by
  refine books_induction (P := fun tally m => m.writes = store.inner.writes + tally.published)
    hnew hrun hes rfl ?_ ?_
  · intro tally m m' hsame hm
    rw [hsame.writes_eq, hm]
  · intro now _ report related tally m o calls m' hc hm
    by_cases ho : o = .published
    · subst ho
      have hwrites := hc.writes_of_published.2.1
      have hpublished : (tally.count .published).published = tally.published + 1 := rfl
      omega
    · have hwrites := (hc.sameContents ho).1.writes_eq
      have hpublished : (tally.count o).published = tally.published := by
        have hnumber := tally.number_count o .published
        rwa [if_neg ho] at hnumber
      omega

/-- The resource is created once at most. -/
theorem creates_le_one (hnew : new? name release capacity related store = .ok s₀)
    (hrun : s₀.run? es = some s) (hes : OnlyInjections es) (hempty : store.inner.objects = []) :
    s.publisher.store.inner.creates ≤ store.inner.creates + 1 := by
  have hlength : s.publisher.store.inner.objects.length + store.inner.creates =
      store.inner.objects.length + s.publisher.store.inner.creates := by
    refine books_induction (P := fun _ m => m.objects.length + store.inner.creates =
      store.inner.objects.length + m.creates) hnew hrun hes rfl ?_ ?_
    · intro _ m m' hsame hm
      rw [hsame.objects, hsame.creates, hm]
    · intro now _ report related _ m o calls m' hc hm
      have hgrown := hc.length_objects
      omega
  have hone := (holdsOnly (Q := fun _ => True) hnew hrun hes hempty
    fun _ _ _ _ _ _ => trivial).length_le_one
  rw [hempty, List.length_nil] at hlength
  omega

/-- **Every cycle is accounted for.** A new publisher over a store in memory is used by threads in
any way, its related objects are set at any time, and calls of the store fail in any pattern. Then
at every moment each report that the worker has taken from the queue has had its cycle, in order,
but for the one in hand; each cycle is counted once, as one outcome, and has written its resource
once or left everything alone, according to that; and the tally agrees with the cycles and with the
store. -/
theorem accounted (hnew : new? name release capacity related store = .ok s₀)
    (hrun : s₀.run? es = some s) (hes : OnlyInjections es) :
    s.entered.map (·.2) = s.processed ++ s.publisher.worker.held ++ s.publisher.queue.items ∧
    (∀ c ∈ s.cycles, c.Accounted name) ∧
    (∀ o, s.publisher.tally.number o = s.cycles.countP fun c => decide (c.IsCounted o)) ∧
    s.publisher.store.inner.writes = store.inner.writes + s.publisher.tally.published ∧
    (store.inner.objects = [] →
      s.publisher.store.inner.creates ≤ store.inner.creates + 1) :=
  ⟨inOrder hnew hrun, accounted_of_mem_cycles hnew hrun, number_eq hnew hrun,
    writes_eq hnew hrun hes, creates_le_one hnew hrun hes⟩

theorem accounted_failingRun : ∃ s₀ s : SharedPublisher Unit (ScriptedStore MemoryStore),
    new? "network" "4.1.0" 8 [] failingStore = .ok s₀ ∧ s₀.run? failingRun = some s ∧
    s.publisher.tally = { published := 2, skipped := 1, failed := 3 } ∧
    s.publisher.store.inner.writes = 0 + s.publisher.tally.published ∧
    s.publisher.store.inner.creates ≤ 1 ∧ ∀ c ∈ s.cycles, c.Accounted "network" := by
  obtain ⟨s₀, s, hnew, hrun, htally, -⟩ := exists_failingRun
  obtain ⟨-, hcycles, -, hwrites, hcreates⟩ := accounted hnew hrun onlyInjections_failingRun
  exact ⟨s₀, s, hnew, hrun, htally, hwrites, hcreates rfl, hcycles⟩

end Store

end SharedPublisher

end OperatorHealth
