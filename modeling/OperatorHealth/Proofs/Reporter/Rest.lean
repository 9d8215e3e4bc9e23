import OperatorHealth.Proofs.SharedPublisher.Accounting
import OperatorHealth.Proofs.SharedReporter.Basic

/-!
# A reporter at rest

A reporter is at rest when its worker waits at an empty queue. Whatever it is told then, it hands
over one report without waiting, and if the worker is left to itself, it runs one cycle, which is
counted, and the reporter is at rest again. This is so for any store and whatever comes of its
calls: a failure of a call is an outcome of the cycle and does not end the worker. A reporter at
rest that is stopped is left with no worker and no report.

## Main definitions

* `Publisher.IsAtRest`: the worker waits at an empty queue.
* `Publisher.published`: the publisher after one more cycle.

## Main results

* `Publisher.perform_startCheck`: starting.
* `Publisher.IsAtRest.settle_enqueue`, `Reporter.isAtRest_settle_report`: one report.
* `Publisher.IsAtRest.stop_eq`: stopping.
-/

namespace OperatorHealth

variable {σ : Type} {now : Instant} {r : StatusReport}

namespace Publisher

variable {p : Publisher σ}

/-- A publisher waits for reports, and all it was given are done with. -/
structure IsAtRest (p : Publisher σ) : Prop extends p.IsServing where
  worker : p.worker = .taking
  items : p.queue.items = []
  pending : p.pending = 0

/-- A publisher that was never started gets a worker, without waiting. -/
theorem perform_startCheck (h : p.IsUnstarted) : p.perform .startCheck =
    (.done, { p with running := true, worker := .taking, joinable := true }) := by
  simp [perform, performFor, act?, actAlive?, h.isOpen, h.idle, h.worker, h.place, h.live]

theorem IsAtRest.isFull_eq (h : p.IsAtRest) : p.queue.isFull = false := by
  have hpos := p.queue.capacity_pos
  simp [BoundedQueue.isFull, BoundedQueue.size, h.items]
  omega

/-- A publisher at rest takes in a report without waiting. -/
theorem IsAtRest.perform_countIn (h : p.IsAtRest) (r : StatusReport) :
    p.perform (.countIn r) =
      (.returned r true, { p with pending := 1, queue := p.queue.append r }) := by
  rw [Publisher.perform_countIn h.toIsServing, h.isFull_eq, h.pending]
  rfl

variable [ResourceStore σ]

/-- The publisher after one more cycle, with its outcome counted. -/
def published (now : Instant) (r : StatusReport) (p : Publisher σ) : Publisher σ :=
  let (outcome, store) := publish p.name p.release p.related now r p.store
  { p with store, tally := p.tally.count outcome }

theorem IsAtRest.published (h : p.IsAtRest) (now : Instant) (r : StatusReport) :
    (p.published now r).IsAtRest where
  running := h.running
  place := h.place
  isOpen := h.isOpen
  live := h.live
  worker := h.worker
  items := h.items
  pending := h.pending

/-- **A report that is handed over at rest has its cycle**, whatever comes of it. -/
theorem IsAtRest.settle_enqueue (h : p.IsAtRest) (now : Instant) (r : StatusReport) :
    (p.enqueue now r).2.settle now = p.published now r := by
  have henqueue : p.enqueue now r = (true, { p with pending := 1, queue := p.queue.append r }) := by
    rw [enqueue, h.perform_countIn]
  rw [henqueue]
  obtain ⟨⟨-, -, hopen, hlive⟩, hworker, hitems, hpending⟩ := h
  obtain ⟨name, release, ⟨capacity, items, closed, hcapacity⟩, store, related, running, worker,
    joinable, pending, tally, terminated⟩ := p
  obtain rfl : closed = false := hopen
  obtain rfl : terminated = false := hlive
  obtain rfl : worker = .taking := hworker
  obtain rfl : items = [] := hitems
  obtain rfl : pending = 0 := hpending
  -- The worker takes the report, runs its cycle, counts it out, and waits again.
  simp [settle, workLeft, workFor, work?, workAlive?, BoundedQueue.pop?, BoundedQueue.append,
    BoundedQueue.size, runCycle_eq, Publisher.published]

/-- A publisher at rest that is stopped has no worker and no report. -/
theorem IsAtRest.stop_eq (h : p.IsAtRest) (now : Instant) :
    p.stop now = { p with
      running := false, queue := p.queue.close, worker := .absent, joinable := false } := by
  have hhalt : p.perform .halt = (.join, { p with running := false, queue := p.queue.close }) := by
    simp [perform, performFor, act?, actAlive?, h.worker, h.place, h.live]
  -- The worker finds the queue closed and empty.
  have hfinish : ({ p with running := false, queue := p.queue.close } : Publisher σ).settle now =
      { p with running := false, queue := p.queue.close, worker := .finished } := by
    simp [settle, workLeft, workFor, work?, workAlive?, BoundedQueue.pop?, BoundedQueue.close,
      BoundedQueue.size, h.worker, h.items, h.live]
  rw [stop, hhalt]
  simp only [hfinish]
  simp [perform, performFor, act?, actAlive?, h.place, h.live]

end Publisher

/-! ### Reporters -/

namespace Reporter

variable [ResourceStore σ]

/-- A signal at rest has its cycle, whatever comes of it, and the reporter is at rest again. -/
theorem settle_report {s : Reporter σ} (h : s.publisher.IsAtRest) (now : Instant)
    (signal : Signal) : (s.report now signal).settle now =
      { s with
        ledger := (s.answer signal).1
        publisher := s.publisher.published now (s.answer signal).2 } := by
  rw [settle, report, h.settle_enqueue]

theorem isAtRest_settle_report {s : Reporter σ} (h : s.publisher.IsAtRest) (now : Instant)
    (signal : Signal) : ((s.report now signal).settle now).publisher.IsAtRest ∧
      ((s.report now signal).settle now).publisher.tally.total =
        s.publisher.tally.total + 1 := by
  rw [settle_report h]
  exact ⟨h.published now _, Tally.total_count ..⟩

end Reporter

end OperatorHealth
