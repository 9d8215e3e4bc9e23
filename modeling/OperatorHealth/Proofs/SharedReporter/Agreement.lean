import OperatorHealth.Proofs.Publication.Reliable
import OperatorHealth.Proofs.SharedReporter.Basic
import OperatorHealth.Workload.Static

/-!
# What is published agrees with what was signalled

A started reporter hands over one report for each signal, in order, and each report carries what
the ledger showed right after its signal. On a store that never fails the last cycle leaves the
resource with what its report carries, so once all cycles are run the resource says what the ledger
shows, which is the verdict on all signals.

## Main definitions

* `SharedReporter.IsInStep`: the reports and the ledger are in step with the signals.
* `SharedReporter.IsStored`: the store is in step with the cycles.

## Main results

* `SharedReporter.degraded_agrees`: the verdict on the signals is what is reported and stored.
-/

namespace OperatorHealth

namespace SharedReporter

variable {σ : Type} {s₀ s s' : SharedReporter σ}

/-! ### Reports and signals -/

/-- The ledger is the one after the signals, what was shown after a signal is what the ledger shows
after the signals up to that one, and each report carries what was shown after its signal. -/
structure IsInStep (s : SharedReporter σ) : Prop where
  ledger_eq : s.reporter.ledger = .after s.signals
  shown_eq : ∀ (k : Nat) x, s.told[k]? = some x →
    x.2 = (DegradedLedger.after (s.signals.take (k + 1))).shown
  carried : (s.processed ++ (s.reporter.publisher.worker.held ++
    s.reporter.publisher.queue.items)).map (·.degradedConditions) = s.told.map fun x => [x.2]

/-- The last thing that was shown is still what is shown. -/
theorem IsInStep.last_shown (h : s.IsInStep) {x : Signal × Condition}
    (hx : s.told.getLast? = some x) : x.2 = s.reporter.ledger.shown := by
  rw [List.getLast?_eq_getElem?] at hx
  have htake : s.signals.take (s.told.length - 1 + 1) = s.signals :=
    List.take_of_length_le (by rw [signals, List.length_map]; omega)
  rw [h.shown_eq _ x hx, htake, h.ledger_eq]

/-- What is shown after one more signal belongs to it, and to no signal before. -/
theorem IsInStep.shown_eq_append (h : s.IsInStep) (signal : Signal) (k : Nat)
    (x : Signal × Condition)
    (hx : (s.told ++ [(signal, (DegradedLedger.after (s.signals ++ [signal])).shown)])[k]? =
      some x) :
    x.2 = (DegradedLedger.after ((s.signals ++ [signal]).take (k + 1))).shown := by
  have hlength : s.signals.length = s.told.length := List.length_map _
  rcases getElem?_append_singleton_cases hx with ⟨hk, hx⟩ | ⟨rfl, rfl⟩
  · rw [List.take_append_of_le_length (by omega)]
    exact h.shown_eq k x hx
  · rw [List.take_of_length_le (by rw [List.length_append, List.length_singleton]; omega)]

/-- The report in hand says one thing about being degraded. -/
theorem IsInStep.exists_carried (h : s.IsInStep) {r : StatusReport}
    (hr : r ∈ s.reporter.publisher.worker.held) : ∃ d, r.degradedConditions = [d] := by
  have hmem : r.degradedConditions ∈ s.told.map fun x => [x.2] := by
    rw [← h.carried]
    exact List.mem_map_of_mem (by simp [hr])
  obtain ⟨x, -, hx⟩ := List.mem_map.mp hmem
  exact ⟨x.2, hx.symm⟩

/-- The report of a cycle carries what was shown after the signal of that place. -/
theorem IsInStep.carried_getElem? (h : s.IsInStep) {k : Nat} {cycle : Cycle σ}
    (hk : s.cycles[k]? = some cycle) : ∃ signal shown, s.told[k]? = some (signal, shown) ∧
      cycle.report.degradedConditions = [shown] := by
  have hlt : k < s.processed.length := by
    rw [processed, List.length_map]
    exact (List.getElem?_eq_some_iff.mp hk).1
  have hcarried := congrArg (·[k]?) h.carried
  simp only [List.map_append, List.getElem?_map] at hcarried
  rw [List.getElem?_append_left (by simpa using hlt), List.getElem?_map, processed,
    List.getElem?_map, hk] at hcarried
  obtain ⟨⟨signal, shown⟩, htold, hshown⟩ := Option.map_eq_some_iff.mp hcarried.symm
  exact ⟨signal, shown, htold, hshown.symm⟩

variable [ResourceStore σ] {e : Event} {name release : String} {capacity : Nat}
  {inspector : Inspector} {store : σ} {es : List Event}

theorem Step.isInStep (h : s.Step e s') (hs : s.IsInStep) : s'.IsInStep := by
  cases h with
  | watchDaemonSets ids => exact ⟨hs.ledger_eq, hs.shown_eq, hs.carried⟩
  | watchDeployments ids => exact ⟨hs.ledger_eq, hs.shown_eq, hs.carried⟩
  | relate related => exact ⟨hs.ledger_eq, hs.shown_eq, hs.carried⟩
  | change inspector => exact ⟨hs.ledger_eq, hs.shown_eq, hs.carried⟩
  | work hwork =>
    refine ⟨hs.ledger_eq, hs.shown_eq, ?_⟩
    rw [← hs.carried, hwork.in_order]
    simp [processed]
  | signal signal hroom =>
    have hledger : signal.enter s.reporter.ledger = .after (s.signals ++ [signal]) := by
      rw [DegradedLedger.after_append_singleton, hs.ledger_eq]
    have hkind : (signal.enter s.reporter.ledger).shown.kind = .degraded := by
      rw [hledger]
      exact DegradedLedger.kind_shown_after _
    refine ⟨?_, ?_, ?_⟩
    · simpa [signals] using hledger
    · have hshown := hs.shown_eq_append signal
      rw [← hledger] at hshown
      simpa [signals] using hshown
    · have hcarried := hs.carried
      have hreport := Reporter.degradedConditions_answer hkind
      simp only [processed, List.map_append] at hcarried
      simp [processed, BoundedQueue.append, hreport, ← hcarried]

theorem isInStep (hstart : started? name release capacity store inspector = .ok s₀)
    (hrun : s₀.run? es = some s) : s.IsInStep := by
  obtain ⟨queue, hitems, hopen, rfl⟩ := eq_of_started? hstart
  refine run?_induction hrun ⟨rfl, rfl, hopen, rfl⟩ ?_ fun e t t' h => h.isInStep
  exact ⟨rfl, by simp, by simp [processed, hitems]⟩

/-! ### The store and the cycles -/

section Store

variable {holds : σ → Option ResourceStatus → Prop} {status? : Option ResourceStatus}

/-- The store is in order for the name of the publisher, and what it holds says what the report of
the last cycle carries. -/
structure IsStored (name : String) (holds : σ → Option ResourceStatus → Prop)
    (s : SharedReporter σ) : Prop where
  name_eq : s.reporter.publisher.name = name
  in_order : ∃ status?, holds s.reporter.publisher.store status?
  last_carried : ∀ cycle, s.cycles.getLast? = some cycle →
    ∀ d, cycle.report.degradedConditions = [d] →
      ∃ status c, holds s.reporter.publisher.store (some status) ∧
        findCondition .degraded status.conditions = some c ∧ c.SaysAs d

theorem Step.isStored (hstore : ReliableStore name holds) (h : s.Step e s')
    (hs : s.IsInStep) (hstored : s.IsStored name holds) : s'.IsStored name holds := by
  cases h with
  | @work now publisher hwork =>
    rcases hwork.books with ⟨hnone, -, hkept⟩ | ⟨r, hworker, hcycle, hafter⟩
    · refine ⟨?_, ?_, ?_⟩
      · rw [← hstored.name_eq]
        cases hwork <;> rfl
      · rw [hkept]
        exact hstored.in_order
      · simpa [hnone, hkept] using hstored.last_carried
    · have hkept : publisher.store = (publish s.reporter.publisher.name
          s.reporter.publisher.release s.reporter.publisher.related now r
          s.reporter.publisher.store).2 :=
        congrArg Prod.snd (hafter.trans (runCycle_eq ..))
      obtain ⟨status?, hholds⟩ := hstored.in_order
      obtain ⟨d, hd⟩ := hs.exists_carried (r := r) (by simp [hworker])
      obtain ⟨status, c, hstatus, hfind, hsays⟩ := hstore.holds_publish hholds hd
        s.reporter.publisher.release s.reporter.publisher.related now
      rw [← hstored.name_eq, ← hkept] at hstatus
      refine ⟨?_, ⟨_, hstatus⟩, ?_⟩
      · rw [← hstored.name_eq]
        cases hwork <;> rfl
      · intro cycle hlast d' hd'
        simp only [hcycle, List.getLast?_concat, Option.some.injEq] at hlast
        subst hlast
        obtain rfl := List.singleton_inj.mp (hd.symm.trans hd')
        exact ⟨status, c, hstatus, hfind, hsays⟩
  | _ => exact ⟨hstored.name_eq, hstored.in_order, hstored.last_carried⟩

theorem isStored (hstore : ReliableStore name holds) (hholds : holds store status?)
    (hstart : started? name release capacity store inspector = .ok s₀)
    (hrun : s₀.run? es = some s) : s.IsStored name holds := by
  have hbegin : s₀.IsInStep ∧ s₀.IsStored name holds := by
    refine ⟨isInStep hstart (show s₀.run? [] = some s₀ from rfl), ?_⟩
    obtain ⟨queue, -, -, rfl⟩ := eq_of_started? hstart
    exact ⟨rfl, ⟨status?, hholds⟩, by simp⟩
  have hserving : s₀.reporter.publisher.IsServing := by
    obtain ⟨queue, -, hopen, rfl⟩ := eq_of_started? hstart
    exact ⟨rfl, rfl, hopen, rfl⟩
  refine (run?_induction (P := fun s => s.IsInStep ∧ s.IsStored name holds) hrun hserving hbegin
    fun e t t' h ht => ?_).2
  exact ⟨h.isInStep ht.1, h.isStored hstore ht.1 ht.2⟩

/-- **What is published agrees with what was signalled.** Threads tell a started reporter signals,
and set what it watches and its related objects, in any order, while the states of the workloads
change and its worker runs, over a store that never fails. Then at every moment the report of each
cycle carries what the ledger showed right after the signal of the same place, and nothing else
about being degraded. What it showed is the verdict on the signals up to that one. Once no report is
left and there was a signal, what is stored about being degraded is the verdict on all signals. -/
theorem degraded_agrees (hstore : ReliableStore name holds) (hholds : holds store status?)
    (hstart : started? name release capacity store inspector = .ok s₀)
    (hrun : s₀.run? es = some s) :
    (∀ (k : Nat) (cycle : Cycle σ), s.cycles[k]? = some cycle → ∃ signal shown,
      s.told[k]? = some (signal, shown) ∧ cycle.report.degradedConditions = [shown] ∧
        Verdict (s.signals.take (k + 1)) shown.status shown.reason shown.message) ∧
    (s.IsDrained → s.signals ≠ [] → ∃ status c,
      holds s.reporter.publisher.store (some status) ∧
        findCondition .degraded status.conditions = some c ∧
        Verdict s.signals c.status c.reason c.message) := by
  have hinStep := isInStep hstart hrun
  refine ⟨fun k cycle hk => ?_, fun hdrained hsignals => ?_⟩
  · obtain ⟨signal, shown, htold, hshown⟩ := hinStep.carried_getElem? hk
    refine ⟨signal, shown, htold, hshown, ?_⟩
    have hafter : shown = _ := hinStep.shown_eq k _ htold
    rw [hafter]
    exact DegradedLedger.verdict_shown _
  -- the last cycle is that of the last signal
  have hcarried := hinStep.carried
  rw [hdrained.1, hdrained.2, List.append_nil, List.append_nil] at hcarried
  obtain ⟨x, hx⟩ : ∃ x, s.told.getLast? = some x := by
    have htold : s.told ≠ [] := fun hnil => hsignals (by simp [signals, hnil])
    exact ⟨_, List.getLast?_eq_some_getLast htold⟩
  have hlast := congrArg List.getLast? hcarried
  rw [List.getLast?_map, processed, List.getLast?_map, List.getLast?_map, hx] at hlast
  obtain ⟨report, hreport, hdegraded⟩ := Option.map_eq_some_iff.mp hlast
  obtain ⟨cycle, hcycle, rfl⟩ := Option.map_eq_some_iff.mp hreport
  -- what it has left is what the ledger shows
  obtain ⟨status, c, hstatus, hfind, hstatusEq, hreason, hmessage⟩ :=
    (isStored hstore hholds hstart hrun).last_carried cycle hcycle x.2 hdegraded
  refine ⟨status, c, hstatus, hfind, ?_⟩
  rw [hstatusEq, hreason, hmessage, hinStep.last_shown hx, hinStep.ledger_eq]
  exact DegradedLedger.verdict_shown s.signals

end Store

/-- A run in which the configuration of the cluster fails, hides other reasons, and recovers. -/
def escalationRun : List Event :=
  [.signal (.degraded .operatorConfig "RenderError" ""), .signal .workloads,
    .work (.ofSeconds 1), .signal (.degraded .clusterConfig "Invalid" ""),
    .work (.ofSeconds 1), .signal (.degraded .podDeployment "CrashLoop" ""),
    .relate [], .signal (.recovered .clusterConfig)] ++
  List.replicate 13 (.work (.ofSeconds 2))

theorem degraded_agrees_escalationRun : ∃ s₀ s : SharedReporter MemoryStore,
    started? "network" "4.1.0" 8 {} (WorkloadTable.inspector {}) = .ok s₀ ∧
    s₀.run? escalationRun = some s ∧ s.IsDrained ∧ s.signals.length = 5 ∧
    ∃ status c, MemoryStore.Holds "network" s.reporter.publisher.store (some status) ∧
      findCondition .degraded status.conditions = some c ∧
      Verdict s.signals c.status c.reason c.message := by
  obtain ⟨s₀, hstart⟩ : ∃ s₀ : SharedReporter MemoryStore,
    started? "network" "4.1.0" 8 {} (WorkloadTable.inspector {}) = .ok s₀ := ⟨_, rfl⟩
  have hend : ((started? (σ := MemoryStore) "network" "4.1.0" 8 {}
      (WorkloadTable.inspector {})).toOption.bind (·.run? escalationRun)).map (fun s =>
        (s.reporter.publisher.queue.items, s.reporter.publisher.worker.held, s.signals.length)) =
      some ([], [], 5) := by decide +kernel
  rw [hstart] at hend
  obtain ⟨s, hrun, hs⟩ := Option.map_eq_some_iff.mp hend
  simp only [Prod.mk.injEq] at hs
  obtain ⟨hitems, hheld, hlength⟩ := hs
  have hsignals : s.signals ≠ [] := fun hnil => by simp [hnil] at hlength
  have hholds : MemoryStore.Holds "network" {} none := ⟨⟨rfl, rfl, rfl⟩, rfl⟩
  obtain ⟨-, hstored⟩ :=
    degraded_agrees (MemoryStore.reliableStore "network") hholds hstart hrun
  exact ⟨s₀, s, hstart, hrun, ⟨hitems, hheld⟩, hlength, hstored ⟨hitems, hheld⟩ hsignals⟩

end SharedReporter

end OperatorHealth
