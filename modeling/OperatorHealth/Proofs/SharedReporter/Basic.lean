import OperatorHealth.Proofs.Reporter.Ledger
import OperatorHealth.Proofs.Run
import OperatorHealth.Proofs.SharedPublisher.Basic

/-!
# A reporter shared by threads

Threads tell a reporter signals and what to look at. A lock lets one of them in at a time, and the
worker of the publisher runs in between. So which thread makes a call does not matter, and what
happens is a list of events, where a signal is one of them: the entry in the ledger, the report,
and all of handing it over. A signal that has to wait for room in the queue gives `none`, and can
be tried again after an action of the worker. The states of the workloads change at any time.

This is how a reporter looks while its publisher is serving, if no thread gets into a signal. All
actions that a signal takes, and starts and stops, are those of a `LiveReporter`, of which every run
here is one.

Beside the reporter, the state keeps a record of what has happened: the signals, each with what the
ledger showed right after it, and the cycles that were run.

## Main definitions

* `SharedReporter`: a reporter with the record.
* `SharedReporter.Event`, `SharedReporter.step?`, `SharedReporter.run?`: events and runs.
* `SharedReporter.Step`: what events do while the publisher is serving.

## Main results

* `Publisher.perform_countIn`: handing over a report to a publisher that is serving.
* `SharedReporter.reporter_eq_report`: a signal does what the reporter does alone.
* `SharedReporter.step?_eq_some_iff`: the rules are the steps.
-/

namespace OperatorHealth

/-! ### Handing over to a publisher that is serving -/

namespace Publisher

variable {σ : Type}

/-- The worker is in its place, there for new reports. -/
structure IsServing (p : Publisher σ) : Prop where
  running : p.running = true
  place : p.joinable = true
  isOpen : p.queue.closed = false
  live : p.terminated = false

/-- A publisher that is serving takes in a report, or has it wait while the queue is full. -/
theorem perform_countIn {p : Publisher σ} (h : p.IsServing) (r : StatusReport) :
    p.perform (.countIn r) =
      if p.queue.isFull then (.push r, { p with pending := p.pending + 1 })
      else (.returned r true,
        { p with pending := p.pending + 1, queue := p.queue.append r }) := by
  cases hfull : p.queue.isFull <;>
    simp [perform, performFor, act?, actAlive?, BoundedQueue.push?, h.running, h.isOpen, h.live,
      hfull]

end Publisher

/-! ### Events -/

/-- A reporter with the record of what has happened, each part of it with the oldest entry first. -/
structure SharedReporter (σ : Type) where
  reporter : Reporter σ
  told : List (Signal × Condition) := []
  cycles : List (Cycle σ) := []

namespace SharedReporter

variable {σ : Type}

/-- What can happen. -/
inductive Event
  /-- The reporter is told a signal. -/
  | signal (signal : Signal)
  /-- The daemon sets to watch are set. -/
  | watchDaemonSets (ids : List WorkloadName)
  /-- The deployments to watch are set. -/
  | watchDeployments (ids : List WorkloadName)
  /-- The related objects are set. -/
  | relate (related : List ObjectReference)
  /-- The states of the workloads have changed. -/
  | change (inspector : Inspector)
  /-- The worker takes its next action, and the clock shows `now`. -/
  | work (now : Instant)

/-- A reporter that has just been set up and started. -/
def started? (name release : String) (capacity : Nat) (store : σ) (inspector : Inspector) :
    Except SetupError (SharedReporter σ) :=
  (Reporter.new? name release (some store) (some inspector) capacity).map fun r =>
    { reporter := r.start }

theorem eq_of_started? {name release : String} {capacity : Nat} {store : σ}
    {inspector : Inspector} {s : SharedReporter σ}
    (h : started? name release capacity store inspector = .ok s) :
    ∃ queue : BoundedQueue StatusReport, queue.items = [] ∧ queue.closed = false ∧
      s = { reporter := {
        publisher := { name, release, queue, store, running := true, worker := .taking,
                       joinable := true }
        inspector } } := by
  by_cases hpos : 0 < capacity
  · simp only [started?, Reporter.new?, Publisher.new?, BoundedQueue.new?, hpos, dite_true,
      Except.map] at h
    cases h
    exact ⟨_, rfl, rfl, rfl⟩
  · simp only [started?, Reporter.new?, Publisher.new?, BoundedQueue.new?, hpos, dite_false,
      Except.map] at h
    cases h

/-- The signals that the reporter was told. -/
def signals (s : SharedReporter σ) : List Signal := s.told.map (·.1)

/-- The reports whose cycles were run. -/
def processed (s : SharedReporter σ) : List StatusReport := s.cycles.map (·.report)

/-- Nothing is left for the worker to run a cycle for. -/
def IsDrained (s : SharedReporter σ) : Prop :=
  s.reporter.publisher.queue.items = [] ∧ s.reporter.publisher.worker.held = []

/-- The state after a signal, if its report is handed over without waiting. -/
def signal? (s : SharedReporter σ) (signal : Signal) : Option (SharedReporter σ) :=
  match s.reporter.publisher.perform (.countIn (s.reporter.answer signal).2) with
  | (.returned .., publisher) =>
    let ledger := (s.reporter.answer signal).1
    some { s with
      reporter := { s.reporter with ledger, publisher }
      told := s.told ++ [(signal, ledger.shown)] }
  | _ => none

variable [ResourceStore σ]

/-- The state after an event. -/
def step? (s : SharedReporter σ) : Event → Option (SharedReporter σ)
  | .signal signal => s.signal? signal
  | .watchDaemonSets ids => some { s with reporter := { s.reporter with daemonSets := ids } }
  | .watchDeployments ids => some { s with reporter := { s.reporter with deployments := ids } }
  | .relate related => some { s with
      reporter := { s.reporter with publisher := s.reporter.publisher.setRelated related } }
  | .change inspector => some { s with reporter := { s.reporter with inspector } }
  | .work now => (s.reporter.publisher.work? now).map fun publisher => { s with
      reporter := { s.reporter with publisher }
      cycles := s.cycles ++ s.reporter.publisher.nextCycle now }

/-- The state after a list of events. -/
def run? (s : SharedReporter σ) (es : List Event) : Option (SharedReporter σ) := es.foldlM step? s

/-- A signal does to the reporter what it does when there is one thread alone. -/
theorem reporter_eq_report {s s' : SharedReporter σ} {signal : Signal}
    (h : s.step? (.signal signal) = some s') (now : Instant) :
    s'.reporter = s.reporter.report now signal := by
  simp only [step?, signal?] at h
  split at h
  · next publisher hperform =>
    cases h
    simp only [Reporter.report, Publisher.enqueue, hperform]
  · cases h

/-! ### Rules -/

/-- What events do to a reporter whose publisher is serving. -/
inductive Step (s : SharedReporter σ) : Event → SharedReporter σ → Prop
  | signal (signal : Signal) (hroom : s.reporter.publisher.queue.isFull = false) :
      Step s (.signal signal) { s with
        reporter := { s.reporter with
          ledger := signal.enter s.reporter.ledger
          publisher := { s.reporter.publisher with
            pending := s.reporter.publisher.pending + 1
            queue := s.reporter.publisher.queue.append (s.reporter.answer signal).2 } }
        told := s.told ++ [(signal, (signal.enter s.reporter.ledger).shown)] }
  | watchDaemonSets (ids : List WorkloadName) :
      Step s (.watchDaemonSets ids) { s with reporter := { s.reporter with daemonSets := ids } }
  | watchDeployments (ids : List WorkloadName) :
      Step s (.watchDeployments ids) { s with reporter := { s.reporter with deployments := ids } }
  | relate (related : List ObjectReference) :
      Step s (.relate related) { s with
        reporter := { s.reporter with publisher := s.reporter.publisher.setRelated related } }
  | change (inspector : Inspector) :
      Step s (.change inspector) { s with reporter := { s.reporter with inspector } }
  | work {now : Instant} {publisher : Publisher σ}
      (hwork : s.reporter.publisher.WorkerStep now publisher) :
      Step s (.work now) { s with
        reporter := { s.reporter with publisher }
        cycles := s.cycles ++ s.reporter.publisher.nextCycle now }

/-- The rules are the steps. -/
theorem step?_eq_some_iff {s s' : SharedReporter σ} {e : Event}
    (hserving : s.reporter.publisher.IsServing) : s.step? e = some s' ↔ s.Step e s' := by
  constructor
  · intro h
    cases e with
    | signal signal =>
      rw [step?, signal?, Publisher.perform_countIn hserving] at h
      cases hfull : s.reporter.publisher.queue.isFull with
      | true =>
        rw [hfull, if_pos rfl] at h
        cases h
      | false =>
        rw [hfull, if_neg Bool.false_ne_true, Reporter.ledger_answer] at h
        cases h
        exact .signal signal hfull
    | watchDaemonSets ids => cases h; exact .watchDaemonSets ids
    | watchDeployments ids => cases h; exact .watchDeployments ids
    | relate related => cases h; exact .relate related
    | change inspector => cases h; exact .change inspector
    | work now =>
      obtain ⟨publisher, hwork, rfl⟩ := Option.map_eq_some_iff.mp h
      exact .work (Publisher.work?_eq_some_iff.mp hwork).2
  · intro h
    cases h with
    | signal signal hroom =>
      rw [step?, signal?, Publisher.perform_countIn hserving, hroom, if_neg Bool.false_ne_true,
        Reporter.ledger_answer]
    | work hwork => simp [step?, Publisher.work?_eq_some_iff.mpr ⟨hserving.live, hwork⟩]
    | _ => rfl

/-- Once it is serving, a publisher goes on to serve, under its name. -/
theorem Step.isServing {s s' : SharedReporter σ} {e : Event} (h : s.Step e s')
    (hserving : s.reporter.publisher.IsServing) : s'.reporter.publisher.IsServing ∧
      s'.reporter.publisher.name = s.reporter.publisher.name := by
  cases h with
  | work hwork =>
    cases hwork <;>
      exact ⟨⟨hserving.running, hserving.place, hserving.isOpen, hserving.live⟩, rfl⟩
  | _ => exact ⟨⟨hserving.running, hserving.place, hserving.isOpen, hserving.live⟩, rfl⟩

/-- What holds at the beginning of a run of a publisher that is serving, and is kept by each event,
holds at the end. -/
theorem run?_induction {P : SharedReporter σ → Prop} {s s' : SharedReporter σ} {es : List Event}
    (hrun : s.run? es = some s') (hserving : s.reporter.publisher.IsServing) (hinit : P s)
    (hstep : ∀ e t t', t.Step e t' → P t → P t') : P s' := by
  refine (foldlM_induction (P := fun s => s.reporter.publisher.IsServing ∧ P s) hrun
    ⟨hserving, hinit⟩ fun e _ t t' het ht => ?_).2
  have hst := (step?_eq_some_iff ht.1).mp het
  exact ⟨(hst.isServing ht.1).1, hstep e t t' hst ht.2⟩

end SharedReporter

end OperatorHealth
