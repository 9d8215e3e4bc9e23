import Mathlib.Data.Set.Card
import OperatorHealth.Proofs.SharedPublisher.Accounting

/-!
# What is pending

A report is counted as pending before its producer looks at the queue, and is counted out in
another thread, or by the producer if the queue refuses it. However all of this interleaves, what
is counted as pending is what is queued, what the worker has in hand, and what is being handed
over. So nobody counts a report out that was not counted in, and once nothing is pending every
report that was accepted has had its cycle.

## Main definitions

* `Call.isCounted`, `SharedPublisher.handingOver`: the hand-overs that are counted as pending.
* `Worker.load`: the number of reports that the worker has in hand.
* `SharedPublisher.Balanced`: the number of pending reports is right.

## Main results

* `SharedPublisher.balanced`: it is right at every moment of a run.
* `SharedPublisher.pending_accounted`: what is pending, and what is over when nothing is.
-/

namespace OperatorHealth

/-! ### What is counted -/

/-- Whether a call has counted its report as pending, and has neither put it into the queue nor
counted it out. -/
def Call.isCounted : Call → Bool
  | checkClosed _ => true
  | checkRunning _ => true
  | offer _ => true
  | push _ => true
  | countOut _ => true
  | _ => false

/-- How many reports the worker has taken out and not counted out. -/
def Worker.load : Worker → Nat
  | publishing _ => 1
  | completing => 1
  | _ => 0

theorem Call.isCounted_of_isOver {c : Call} (h : c.isOver = true) : c.isCounted = false := by
  cases c <;> first | rfl | cases h

theorem Request.isCounted_call (q : Request) : q.call.isCounted = false := by
  cases q <;> rfl

/-- A call that is counted hands over a report. -/
theorem Call.isCounted_eq_false_of_underWay {c : Call} (h : c.underWay = []) :
    c.isCounted = false := by
  cases c <;> first | rfl | cases h

/-! ### Single actions -/

namespace Publisher

variable {σ : Type} {p p' : Publisher σ} {c c' : Call}

/-- The reports that the queue and the worker have. -/
def load (p : Publisher σ) : Nat := p.queue.size + p.worker.load

/-- What an action of a call does to the balance: it counts its report in, passes it on to the
queue, counts it out, or changes nothing. -/
inductive CallStep.Posting (p p' : Publisher σ) (c c' : Call) : Prop
  | countedIn (hc : c.isCounted = false) (hc' : c'.isCounted = true)
      (hpending : p'.pending = p.pending + 1) (hload : p'.load = p.load)
  | passedOn (hc : c.isCounted = true) (hc' : c'.isCounted = false)
      (hpending : p'.pending = p.pending) (hload : p'.load = p.load + 1)
  | countedOut (hc : c.isCounted = true) (hc' : c'.isCounted = false)
      (hpending : p'.pending = p.pending - 1) (hload : p'.load = p.load)
  | unchanged (hc : c'.isCounted = c.isCounted) (hpending : p'.pending = p.pending)
      (hload : p'.load = p.load)

theorem CallStep.posting (h : CallStep p c c' p') : CallStep.Posting p p' c c' := by
  cases h with
  | countIn r => exact .countedIn rfl rfl rfl rfl
  | enter r hc =>
    refine .passedOn (by rcases hc with rfl | rfl <;> rfl) rfl rfl ?_
    simp only [load, BoundedQueue.size, BoundedQueue.append, List.length_append,
      List.length_singleton]
    omega
  | refuse r hc =>
    refine .unchanged ?_ rfl rfl
    rcases hc with ⟨rfl, -⟩ | ⟨rfl, -⟩ <;> rfl
  | countOut r => exact .countedOut rfl rfl rfl rfl
  | launch hworker => exact .unchanged rfl rfl (by simp [load, hworker, Worker.load])
  | join hplace hworker => exact .unchanged rfl rfl (by simp [load, hworker, Worker.load])
  | _ => exact .unchanged rfl rfl rfl

variable [ResourceStore σ] {now : Instant}

/-- The worker counts out what it has in hand, and otherwise leaves the balance alone. -/
theorem WorkerStep.posting (h : WorkerStep now p p') :
    (p'.pending = p.pending ∧ p'.load = p.load) ∨
    p'.pending = p.pending - 1 ∧ p.load = p'.load + 1 := by
  cases h with
  | take r rest hworker hitems =>
    refine .inl ⟨rfl, ?_⟩
    simp only [load, BoundedQueue.size, hworker, hitems, Worker.load, List.length_cons]
  | finish hworker => exact .inl ⟨rfl, by simp [load, hworker, Worker.load]⟩
  | run r hworker => exact .inl ⟨rfl, by simp [load, hworker, Worker.load]⟩
  | complete hworker => exact .inr ⟨rfl, by simp [load, hworker, Worker.load]⟩

end Publisher

namespace SharedPublisher

variable {ι σ : Type}

/-! ### Hand-overs of threads -/

/-- The threads whose hand-over is counted as pending. -/
def handingOver (s : SharedPublisher ι σ) : Set ι := {i | (s.calls i).isCounted = true}

/-- The number of pending reports is right: each of them is queued, in the hands of the worker, or
being handed over. -/
structure Balanced (s : SharedPublisher ι σ) : Prop where
  finite : s.handingOver.Finite
  pending_eq : s.publisher.pending = s.publisher.load + s.handingOver.ncard

/-- Nothing is queued, in hand or being handed over when nothing is pending. -/
theorem Balanced.of_isIdle {s : SharedPublisher ι σ} (hs : s.Balanced)
    (hidle : s.publisher.isIdle = true) :
    s.publisher.queue.items = [] ∧ s.publisher.worker.load = 0 ∧ s.handingOver = ∅ := by
  have hpending := hs.pending_eq
  have hzero : s.publisher.pending = 0 := by simpa [Publisher.isIdle] using hidle
  rw [hzero, Publisher.load, BoundedQueue.size] at hpending
  refine ⟨List.length_eq_zero_iff.mp (by omega), by omega, ?_⟩
  exact (Set.ncard_eq_zero hs.finite).mp (by omega)

/-- Whoever counts a report out finds one that is pending. -/
theorem Balanced.pending_pos {s : SharedPublisher ι σ} (hs : s.Balanced) :
    (∀ i, (s.calls i).isCounted = true → 0 < s.publisher.pending) ∧
    (0 < s.publisher.worker.load → 0 < s.publisher.pending) := by
  have hpending := hs.pending_eq
  refine ⟨fun i hi => ?_, fun hload => ?_⟩
  · have hpos : 0 < s.handingOver.ncard := (Set.ncard_pos hs.finite).mpr ⟨i, hi⟩
    omega
  · rw [Publisher.load] at hpending
    omega

/-- The worker has drained the queue when it has nothing in hand. -/
theorem isDrained_of_load {s : SharedPublisher ι σ} (hitems : s.publisher.queue.items = [])
    (hload : s.publisher.worker.load = 0) : s.IsDrained := by
  refine ⟨hitems, ?_⟩
  cases hworker : s.publisher.worker <;> first | rfl | simp [hworker, Worker.load] at hload

/-! ### The balance at every moment -/

variable [DecidableEq ι]

theorem setOf_isCounted_update (calls : ι → Call) (i : ι) (c : Call) :
    {j | (Function.update calls i c j).isCounted = true} =
      if c.isCounted then insert i {j | (calls j).isCounted = true}
      else {j | (calls j).isCounted = true} \ {i} := by
  ext j
  by_cases hj : j = i
  · subst hj
    cases hc : c.isCounted <;> simp [hc]
  · cases hc : c.isCounted <;> simp [hj]

/-- When the call of one thread goes on, the hand-overs change by that one at most. -/
theorem ncard_handingOver_act {s : SharedPublisher ι σ} (hfinite : s.handingOver.Finite) (i : ι)
    (c : Call) (p : Publisher σ) : (s.act i c p).handingOver.Finite ∧
      (s.act i c p).handingOver.ncard + (s.calls i).isCounted.toNat =
        s.handingOver.ncard + c.isCounted.toNat := by
  have hset : (s.act i c p).handingOver =
      if c.isCounted then insert i s.handingOver else s.handingOver \ {i} :=
    setOf_isCounted_update s.calls i c
  have hmem : i ∈ s.handingOver ↔ (s.calls i).isCounted = true := Iff.rfl
  rw [hset]
  cases hold : (s.calls i).isCounted <;> cases hnew : c.isCounted <;>
    simp only [hold, Bool.false_eq_true, if_true, if_false, Bool.toNat_true, Bool.toNat_false,
      Nat.add_zero, iff_true, iff_false] at hmem ⊢
  · rw [Set.sdiff_singleton_eq_self hmem]
    exact ⟨hfinite, rfl⟩
  · exact ⟨hfinite.insert i, Set.ncard_insert_of_notMem hmem hfinite⟩
  · exact ⟨hfinite.sdiff, Set.ncard_sdiff_singleton_add_one hmem hfinite⟩
  · rw [Set.insert_eq_of_mem hmem]
    exact ⟨hfinite, rfl⟩

theorem handingOver_request {s : SharedPublisher ι σ} {i : ι} (hover : (s.calls i).isOver = true)
    (q : Request) : (s.request i q).handingOver = s.handingOver := by
  have hset : (s.request i q).handingOver =
      if q.call.isCounted then insert i s.handingOver else s.handingOver \ {i} :=
    setOf_isCounted_update s.calls i q.call
  have hmem : i ∉ s.handingOver := by simp [handingOver, Call.isCounted_of_isOver hover]
  rw [hset, q.isCounted_call, if_neg Bool.false_ne_true, Set.sdiff_singleton_eq_self hmem]

variable [ResourceStore σ] {s₀ s s' : SharedPublisher ι σ} {e : Event ι σ}
  {name release : String} {capacity : Nat} {related : List ObjectReference} {store : σ}
  {es : List (Event ι σ)}

theorem Step.balanced (h : s.Step e s') (hs : s.Balanced) : s'.Balanced := by
  obtain ⟨hfinite, hpending⟩ := hs
  cases h with
  | relate related => exact ⟨hfinite, hpending⟩
  | arrange change => exact ⟨hfinite, hpending⟩
  | request i q hover =>
    have hset := handingOver_request hover q
    exact ⟨hset ▸ hfinite, by rw [hset]; exact hpending⟩
  | @act i c p hact =>
    obtain ⟨hfinite', hcard⟩ := ncard_handingOver_act hfinite i c p
    refine ⟨hfinite', ?_⟩
    change p.pending = p.load + _
    -- a call that counts out was counted, so there is something pending to be taken away
    cases hact.posting with
    | countedIn hc hc' hp hload =>
      rw [hc, hc', Bool.toNat_false, Bool.toNat_true] at hcard
      omega
    | passedOn hc hc' hp hload =>
      rw [hc, hc', Bool.toNat_false, Bool.toNat_true] at hcard
      omega
    | countedOut hc hc' hp hload =>
      rw [hc, hc', Bool.toNat_false, Bool.toNat_true] at hcard
      omega
    | unchanged hc hp hload =>
      rw [hc] at hcard
      omega
  | @work now p hwork =>
    refine ⟨hfinite, ?_⟩
    change p.pending = p.load + s.handingOver.ncard
    rcases hwork.posting with ⟨hp, hload⟩ | ⟨hp, hload⟩ <;> omega

/-- The number of pending reports is right at every moment of a run. -/
theorem balanced (hnew : new? name release capacity related store = .ok s₀)
    (hrun : s₀.run? es = some s) : s.Balanced := by
  refine run?_induction hrun ?_ fun e _ t t' h => h.balanced
  obtain ⟨queue, hitems, -, -, rfl⟩ := eq_of_new? hnew
  have hnone : handingOver (σ := σ) (ι := ι)
      { publisher := { name, release, queue, store, related } } = ∅ := by
    simp [handingOver, Call.isCounted]
  refine ⟨by simp [hnone], ?_⟩
  rw [hnone, Set.ncard_empty]
  simp [Publisher.load, BoundedQueue.size, hitems, Worker.load]

/-! ### What is over when nothing is pending -/

/-- Once the queue is drained, every accepted report has had its cycle, and they are counted. -/
theorem processed_of_isDrained (hnew : new? name release capacity related store = .ok s₀)
    (hrun : s₀.run? es = some s) (hdrained : s.IsDrained) :
    s.processed = s.accepted.map (·.2) ∧ s.publisher.tally.total = s.accepted.length := by
  have horder := inOrder hnew hrun
  rw [InOrder, hdrained.1, hdrained.2, List.append_nil, List.append_nil,
    entered_eq_accepted hnew hrun] at horder
  refine ⟨horder.symm, ?_⟩
  rw [total_eq hnew hrun, ← List.length_map (fun x : ι × StatusReport => x.2), horder, processed,
    List.length_map]

/-- **What is pending is accounted for.** Threads hand over reports to a new publisher, start it
and stop it in any way, over any store. At every moment the number of pending reports is that of
the queued ones, of those that the worker has in hand, and of the hand-overs that are counted and
neither passed on to the queue nor counted out. A hand-over that counts out, and the worker when it
does, find a report that is pending. Whenever nothing is pending, the queue is empty, and the
reports that were accepted have had their cycles, in order, each counted as one outcome. -/
theorem pending_accounted (hnew : new? name release capacity related store = .ok s₀)
    (hrun : s₀.run? es = some s) :
    (s.handingOver.Finite ∧ s.publisher.pending =
      s.publisher.queue.size + s.publisher.worker.load + s.handingOver.ncard) ∧
    (∀ i r, s.calls i = .countOut r → 0 < s.publisher.pending) ∧
    (s.publisher.worker = .completing → 0 < s.publisher.pending) ∧
    (s.publisher.isIdle = true → s.publisher.queue.items = [] ∧
      s.processed = s.accepted.map (·.2) ∧ (∀ c ∈ s.cycles, ∃! o, c.IsCounted o) ∧
      s.publisher.tally.published + s.publisher.tally.skipped + s.publisher.tally.failed =
        s.accepted.length) := by
  have hbalanced := balanced hnew hrun
  refine ⟨⟨hbalanced.finite, hbalanced.pending_eq⟩, fun i r hcall => ?_, fun hworker => ?_,
    fun hidle => ?_⟩
  · exact hbalanced.pending_pos.1 i (by rw [hcall]; rfl)
  · exact hbalanced.pending_pos.2 (by rw [hworker]; exact Nat.one_pos)
  · obtain ⟨hitems, hload, -⟩ := hbalanced.of_isIdle hidle
    obtain ⟨hprocessed, htotal⟩ :=
      processed_of_isDrained hnew hrun (isDrained_of_load hitems hload)
    exact ⟨hitems, hprocessed, existsUnique_isCounted hnew hrun, htotal⟩

/-- A run of two threads at a queue for one report: the worker has a report in hand, one is queued,
and one has to wait. -/
def crowdedRun : List (Event Bool MemoryStore) :=
  Event.wholeCall true .start 4 ++ Event.wholeCall true (.handOver ⟨[], true⟩) 4 ++
  .work (.ofSeconds 1) :: Event.wholeCall true (.handOver ⟨[], false⟩) 4 ++
  Event.wholeCall false (.handOver ⟨[upgradeAllowed], true⟩) 3

/-- What is left to do after the crowded run. -/
def crowdedRun.rest : List (Event Bool MemoryStore) :=
  List.replicate 3 (.work (.ofSeconds 2)) ++ .act false :: List.replicate 5 (.work (.ofSeconds 3))

theorem pending_accounted_crowdedRun : ∃ s₀ s t : SharedPublisher Bool MemoryStore,
    new? "network" "4.1.0" 1 [] {} = .ok s₀ ∧ s₀.run? crowdedRun = some s ∧
    s.publisher.pending = 3 ∧ s.publisher.queue.size = 1 ∧ s.publisher.worker.load = 1 ∧
    s.handingOver.ncard = 1 ∧ s₀.run? (crowdedRun ++ crowdedRun.rest) = some t ∧
    t.publisher.isIdle = true ∧ t.accepted.length = 3 ∧
    t.publisher.tally.published + t.publisher.tally.skipped + t.publisher.tally.failed = 3 := by
  obtain ⟨s₀, hnew, s, hrun, hpending, hsize, hload, t, hrest, hidle, haccepted⟩ :
      ∃ s₀ : SharedPublisher Bool MemoryStore, new? "network" "4.1.0" 1 [] {} = .ok s₀ ∧
      ∃ s, s₀.run? crowdedRun = some s ∧ s.publisher.pending = 3 ∧ s.publisher.queue.size = 1 ∧
        s.publisher.worker.load = 1 ∧ ∃ t, s₀.run? (crowdedRun ++ crowdedRun.rest) = some t ∧
        t.publisher.isIdle = true ∧ t.accepted.length = 3 :=
    ⟨_, rfl, _, rfl, rfl, rfl, rfl, _, rfl, rfl, rfl⟩
  obtain ⟨⟨-, hbalance⟩, -⟩ := pending_accounted hnew hrun
  obtain ⟨-, -, -, hover⟩ := pending_accounted hnew hrest
  refine ⟨s₀, s, t, hnew, hrun, hpending, hsize, hload, by omega, hrest, hidle, haccepted, ?_⟩
  rw [(hover hidle).2.2.2, haccepted]

end SharedPublisher

end OperatorHealth
