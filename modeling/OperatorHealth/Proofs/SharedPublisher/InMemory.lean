import OperatorHealth.Proofs.Publication.Course
import OperatorHealth.Proofs.SharedPublisher.Basic

/-!
# Shared publishers over a store in memory

A publisher shared by threads over a store in memory, whose calls fail in any pattern, and to which
nothing else happens than further failures. Every cycle takes one of the courses, and only cycles
change what is stored. So whatever the courses keep holds at every moment of a run.

## Main definitions

* `Cycle.calls`: the calls of a cycle.
* `SharedPublisher.OnlyInjections`: nothing but failures comes from outside.

## Main results

* `SharedPublisher.course_of_mem_cycles`: the cycles take courses.
* `SharedPublisher.books_induction`: what the courses keep holds of the tally and the store.
* `SharedPublisher.holdsOnly`: nothing is stored but the resource of the publisher.
-/

namespace OperatorHealth

/-- The calls of a cycle on a store under a script. -/
def Cycle.calls {σ : Type} (c : Cycle (ScriptedStore σ)) : List CallRecord :=
  c.after.2.log.drop c.before.2.log.length

/-- A cycle that a publisher runs is counted as one outcome, and takes the course to it. -/
theorem CycleCourse.of_cycle (p : Publisher (ScriptedStore MemoryStore)) (now : Instant)
    (r : StatusReport) : ∃ outcome, (p.cycle now r).IsCounted outcome ∧
      CycleCourse p.name (r.applyTo p.release p.related now) p.store.inner outcome
        (p.cycle now r).calls (p.cycle now r).after.2.inner := by
  obtain ⟨calls, hlog, hcourse⟩ := publish_course p.name p.release p.related now r p.store
  refine ⟨_, p.isCounted_cycle now r, ?_⟩
  rw [Cycle.calls, p.store_cycle, hlog, show (p.cycle now r).before.2.log = p.store.log from rfl,
    List.drop_left]
  exact hcourse

namespace SharedPublisher

/-! ### Runs in which only failures come from outside -/

variable {ι : Type} [DecidableEq ι] {s₀ s s' : SharedPublisher ι (ScriptedStore MemoryStore)}
  {e : Event ι (ScriptedStore MemoryStore)} {name release : String} {capacity : Nat}
  {related : List ObjectReference} {store : ScriptedStore MemoryStore}
  {es : List (Event ι (ScriptedStore MemoryStore))}

/-- Nothing happens to the store from outside but that more of its calls are made to fail. -/
def OnlyInjections (es : List (Event ι (ScriptedStore MemoryStore))) : Prop :=
  ∀ f, Event.arrange f ∈ es → ∃ j : Injection, f = j.apply

/-- Every cycle of a run takes one of the courses. -/
theorem course_of_mem_cycles (hnew : new? name release capacity related store = .ok s₀)
    (hrun : s₀.run? es = some s) : ∀ c ∈ s.cycles, ∃ related outcome, c.IsCounted outcome ∧
      CycleCourse name (c.report.applyTo release related c.now) c.before.2.inner outcome c.calls
        c.after.2.inner := by
  refine (run?_induction (P := fun s => (s.publisher.name = name ∧ s.publisher.release = release) ∧
    ∀ c ∈ s.cycles, ∃ related outcome, c.IsCounted outcome ∧
      CycleCourse name (c.report.applyTo release related c.now) c.before.2.inner outcome c.calls
        c.after.2.inner) hrun ?_ fun e _ t t' h ht => ?_).2
  · obtain ⟨queue, -, -, -, rfl⟩ := eq_of_new? hnew
    exact ⟨⟨rfl, rfl⟩, by simp⟩
  · obtain ⟨⟨rfl, rfl⟩, hall⟩ := ht
    refine ⟨h.name_release_eq, ?_⟩
    rcases h.books with ⟨hcycles, -⟩ | ⟨f, -, hcycles, -⟩ | ⟨now, r, -, -, hcycles, -⟩ <;>
      rw [hcycles]
    · exact hall
    · exact hall
    · intro c hc
      rcases List.mem_append.mp hc with hc | hc
      · exact hall c hc
      · obtain rfl := List.mem_singleton.mp hc
        exact ⟨_, CycleCourse.of_cycle t.publisher now r⟩

/-- What each course keeps of the tally and the store holds at every moment of a run. -/
theorem books_induction {P : Tally → MemoryStore → Prop}
    (hnew : new? name release capacity related store = .ok s₀) (hrun : s₀.run? es = some s)
    (hes : OnlyInjections es) (hinit : P {} store.inner)
    (hsame : ∀ tally m m', m'.SameContents m → P tally m → P tally m')
    (hcourse : ∀ now, Event.work now ∈ es → ∀ report related tally m outcome calls m',
      CycleCourse name (StatusReport.applyTo report release related now) m outcome calls m' →
        P tally m → P (tally.count outcome) m') :
    P s.publisher.tally s.publisher.store.inner := by
  refine (run?_induction (P := fun s => (s.publisher.name = name ∧ s.publisher.release = release) ∧
    P s.publisher.tally s.publisher.store.inner) hrun ?_ fun e he t t' h ht => ?_).2
  · obtain ⟨queue, -, -, -, rfl⟩ := eq_of_new? hnew
    exact ⟨⟨rfl, rfl⟩, hinit⟩
  · obtain ⟨⟨rfl, rfl⟩, hbooks⟩ := ht
    refine ⟨h.name_release_eq, ?_⟩
    rcases h.books with ⟨-, htally, hstore⟩ | ⟨f, rfl, -, htally, hstore⟩ |
      ⟨now, r, rfl, -, -, hafter⟩
    · rw [htally, hstore]
      exact hbooks
    · obtain ⟨j, rfl⟩ := hes f he
      rw [htally, hstore]
      exact hsame _ _ _ (j.sameContents_apply _) hbooks
    · obtain ⟨outcome, hcounted, hc⟩ := CycleCourse.of_cycle t.publisher now r
      have htally := (congrArg Prod.fst hafter).trans hcounted
      have hstore := congrArg (fun books : Tally × _ => books.2.inner) hafter
      dsimp only at htally hstore
      rw [htally, hstore]
      exact hcourse now he _ _ _ _ _ _ _ hc hbooks

/-- From a store without resources, there is at most the one of the publisher, and its status has
every property that the status worked out from nothing has, and that is kept. -/
theorem holdsOnly {Q : ResourceStatus → Prop}
    (hnew : new? name release capacity related store = .ok s₀) (hrun : s₀.run? es = some s)
    (hes : OnlyInjections es) (hempty : store.inner.objects = [])
    (hQ : ∀ now, Event.work now ∈ es → ∀ (report : StatusReport) related old, old = {} ∨ Q old →
      Q (report.applyTo release related now old)) :
    s.publisher.store.inner.HoldsOnly name Q := by
  refine books_induction (P := fun _ m => m.HoldsOnly name Q) hnew hrun hes (.inl hempty) ?_ ?_
  · intro _ m m' hsame hm
    exact hm.of_sameContents hsame
  · intro now hnow report related _ m outcome calls m' hc hm
    exact hc.holdsOnly (hQ now hnow report related _ (.inl rfl))
      (fun st hst => hQ now hnow report related st (.inr hst)) hm

/-! ### A run with failures -/

/-- A report that says that an operator is available or not. -/
def availability (status : ConditionStatus) : StatusReport where
  conditions := [{ kind := .available, status }]
  reachedRelease := true

/-- A store that is empty. The second time that it is asked for a resource it asserts that there is
none, and the third time something else goes wrong. -/
def failingStore : ScriptedStore MemoryStore where
  inner := {}
  script := [none, none, some .notFound, none, some (.foreign "out of memory")]

/-- A run of one thread, with a cycle for each report that it hands over, in which an update is
refused towards the end. -/
def failingRun : List (Event Unit (ScriptedStore MemoryStore)) :=
  Event.wholeCall () .start 4 ++
  [.true, .false, .false, .true].flatMap handled ++
  .arrange (Injection.refuse .update "busy").apply :: [.false, .false].flatMap handled
where
  handled (status : ConditionStatus) :=
    Event.wholeCall () (.handOver (availability status)) 4 ++
      List.replicate 3 (.work (.ofSeconds 1))

theorem onlyInjections_failingRun : OnlyInjections failingRun := by
  intro f hf
  refine ⟨.refuse .update "busy", ?_⟩
  simpa [failingRun, failingRun.handled, Event.wholeCall] using hf

/-- The run with failures can happen, and cycles of it end in each way. -/
theorem exists_failingRun : ∃ s₀ s : SharedPublisher Unit (ScriptedStore MemoryStore),
    new? "network" "4.1.0" 8 [] failingStore = .ok s₀ ∧ s₀.run? failingRun = some s ∧
    s.publisher.tally = { published := 2, skipped := 1, failed := 3 } ∧
    s.publisher.store.inner.objects.length = 1 := by
  obtain ⟨s₀, hnew⟩ : ∃ s₀ : SharedPublisher Unit (ScriptedStore MemoryStore),
    new? "network" "4.1.0" 8 [] failingStore = .ok s₀ := ⟨_, rfl⟩
  have hend : ((new? (ι := Unit) "network" "4.1.0" 8 [] failingStore).toOption.bind
      (·.run? failingRun)).map (fun s => (s.publisher.tally,
        s.publisher.store.inner.objects.length)) =
      some ({ published := 2, skipped := 1, failed := 3 }, 1) := by decide +kernel
  rw [hnew] at hend
  obtain ⟨s, hrun, hs⟩ := Option.map_eq_some_iff.mp hend
  exact ⟨s₀, s, hnew, hrun, congrArg Prod.fst hs, congrArg Prod.snd hs⟩

end SharedPublisher

end OperatorHealth
