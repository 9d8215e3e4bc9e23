import OperatorHealth.Proofs.Publication.Outcome
import OperatorHealth.Publisher

/-!
# What one action does to a publisher

The actions of calls and of the worker as rules, one for each thing that can happen, with the state
it happens in. As long as the program has not ended, the rules say the same as the functions that
run (`Publisher.act?_eq_some_iff`, `Publisher.work?_eq_some_iff`), and what an action leaves alone
is read off them: a call changes neither what is stored nor the tally, puts at most its own report
behind the queue, and takes no report from the worker.

## Main definitions

* `Call.report?`, `Call.entered`, `Worker.held`: the report of a call, the reports that a call has
  just put in, and the report that the worker has in hand.
* `Publisher.CallStep`, `Publisher.WorkerStep`: the rules.
* `Publisher.IsUnstarted`: publishers that nobody has begun to start.

## Main results

* `Publisher.act?_eq_some_iff`, `Publisher.work?_eq_some_iff`.
* `Publisher.CallStep.frame`, `Publisher.CallStep.items_eq`, `Publisher.CallStep.held_eq`,
  `Publisher.CallStep.report?_eq`.
-/

namespace OperatorHealth

/-! ### Calls and workers -/

namespace Call

/-- Whether nothing is left to do. -/
def isOver : Call → Bool
  | returned .. => true
  | done => true
  | _ => false

/-- The report that a call hands over. -/
def report? : Call → Option StatusReport
  | countIn r => some r
  | checkClosed r => some r
  | checkRunning r => some r
  | offer r => some r
  | push r => some r
  | countOut r => some r
  | returned r _ => some r
  | _ => none

/-- What a call that has just come this far has put into the queue. -/
def entered : Call → List StatusReport
  | returned r true => [r]
  | _ => []

/-- A hand-over that is over has its answer. -/
theorem eq_returned_of_isOver {c : Call} {r : StatusReport} (hover : c.isOver = true)
    (h : c.report? = some r) : ∃ accepted, c = .returned r accepted := by
  cases c with
  | returned r' accepted => exact ⟨accepted, by rw [Option.some.inj h]⟩
  | done => cases h
  | _ => cases hover

end Call

/-- The report whose cycle the worker is about to run. -/
def Worker.held : Worker → List StatusReport
  | publishing r => [r]
  | _ => []

@[simp] theorem Worker.held_absent : Worker.absent.held = [] := rfl

@[simp] theorem Worker.held_taking : Worker.taking.held = [] := rfl

@[simp] theorem Worker.held_publishing (r : StatusReport) : (Worker.publishing r).held = [r] := rfl

@[simp] theorem Worker.held_completing : Worker.completing.held = [] := rfl

@[simp] theorem Worker.held_finished : Worker.finished.held = [] := rfl

namespace Publisher

variable {σ : Type} {p p' : Publisher σ} {c c' : Call}

/-- Nobody has begun to start the publisher, and nobody has stopped it. -/
structure IsUnstarted (p : Publisher σ) : Prop where
  idle : p.running = false
  worker : p.worker = .absent
  place : p.joinable = false
  isOpen : p.queue.closed = false
  live : p.terminated = false

/-! ### Actions of calls -/

/-- The actions of calls at a publisher. -/
inductive CallStep (p : Publisher σ) : Call → Call → Publisher σ → Prop
  | countIn (r : StatusReport) :
      CallStep p (.countIn r) (.checkClosed r) { p with pending := p.pending + 1 }
  | closed (r : StatusReport) (hclosed : p.queue.closed = true) :
      CallStep p (.checkClosed r) (.countOut r) p
  | stillOpen (r : StatusReport) (hopen : p.queue.closed = false) :
      CallStep p (.checkClosed r) (.checkRunning r) p
  | running (r : StatusReport) (hrunning : p.running = true) :
      CallStep p (.checkRunning r) (.push r) p
  | notRunning (r : StatusReport) (hidle : p.running = false) :
      CallStep p (.checkRunning r) (.offer r) p
  | enter {c : Call} (r : StatusReport) (hc : c = .offer r ∨ c = .push r)
      (hopen : p.queue.closed = false) (hroom : p.queue.isFull = false) :
      CallStep p c (.returned r true) { p with queue := p.queue.append r }
  | refuse {c : Call} (r : StatusReport)
      (hc : c = .offer r ∧ (p.queue.closed = true ∨ p.queue.isFull = true) ∨
        c = .push r ∧ p.queue.closed = true) :
      CallStep p c (.countOut r) p
  | countOut (r : StatusReport) :
      CallStep p (.countOut r) (.returned r false) { p with pending := p.pending - 1 }
  | startClosed (hclosed : p.queue.closed = true) : CallStep p .startCheck .done p
  | startOpen (hopen : p.queue.closed = false) : CallStep p .startCheck .reserve p
  | reserved (hrunning : p.running = true) : CallStep p .reserve .done { p with running := true }
  | reserve (hidle : p.running = false) : CallStep p .reserve .launch { p with running := true }
  | launch (hworker : p.worker = .absent) : CallStep p .launch .place { p with worker := .taking }
  | crowd (hworker : p.worker ≠ .absent) :
      CallStep p .launch .launch { p with terminated := true }
  | place (hplace : p.joinable = false) : CallStep p .place .done { p with joinable := true }
  | displace (hplace : p.joinable = true) :
      CallStep p .place .place { p with terminated := true }
  | halt : CallStep p .halt .closeQueue { p with running := false }
  | closeQueue : CallStep p .closeQueue .join { p with queue := p.queue.close }
  | join (hplace : p.joinable = true) (hworker : p.worker = .finished) :
      CallStep p .join .done { p with worker := .absent, joinable := false }
  | notJoinable (hplace : p.joinable = false) : CallStep p .join .done p

private theorem callStep_of_actAlive? (h : p.actAlive? c = some (c', p')) :
    CallStep p c c' p' := by
  cases c with
  | countIn r => cases h; exact .countIn r
  | checkClosed r =>
    cases hq : p.queue.closed <;> simp only [actAlive?, hq] at h <;> cases h
    · exact .stillOpen r hq
    · exact .closed r hq
  | checkRunning r =>
    cases hr : p.running <;> simp only [actAlive?, hr] at h <;> cases h
    · exact .notRunning r hr
    · exact .running r hr
  | offer r =>
    by_cases hq : p.queue.closed || p.queue.isFull
    · simp only [actAlive?, BoundedQueue.offer, hq, if_true] at h
      cases h
      exact .refuse r (.inl ⟨rfl, by simpa using hq⟩)
    · simp only [actAlive?, BoundedQueue.offer, hq, Bool.false_eq_true, if_false] at h
      cases h
      obtain ⟨hopen, hroom⟩ : p.queue.closed = false ∧ p.queue.isFull = false := by simpa using hq
      exact .enter r (.inl rfl) hopen hroom
  | push r =>
    cases hopen : p.queue.closed with
    | true =>
      simp only [actAlive?, BoundedQueue.push?, hopen, if_true] at h
      cases h
      exact .refuse r (.inr ⟨rfl, hopen⟩)
    | false =>
      cases hroom : p.queue.isFull with
      | true => simp [actAlive?, BoundedQueue.push?, hopen, hroom] at h
      | false =>
        simp only [actAlive?, BoundedQueue.push?, hopen, hroom, Bool.false_eq_true, if_false] at h
        cases h
        exact .enter r (.inr rfl) hopen hroom
  | countOut r => cases h; exact .countOut r
  | returned r b => cases h
  | startCheck =>
    cases hq : p.queue.closed <;> simp only [actAlive?, hq] at h <;> cases h
    · exact .startOpen hq
    · exact .startClosed hq
  | reserve =>
    cases hr : p.running <;> simp only [actAlive?, hr] at h <;> cases h
    · exact .reserve hr
    · exact .reserved hr
  | launch =>
    by_cases hw : p.worker = .absent
    · simp only [actAlive?, hw, if_true] at h
      cases h
      exact .launch hw
    · simp only [actAlive?, hw, if_false] at h
      cases h
      exact .crowd hw
  | place =>
    by_cases hplace : p.joinable = true
    · rw [actAlive?, if_pos hplace] at h
      cases h
      exact .displace hplace
    · rw [actAlive?, if_neg hplace] at h
      cases h
      exact .place (Bool.eq_false_iff.mpr hplace)
  | halt => cases h; exact .halt
  | closeQueue => cases h; exact .closeQueue
  | join =>
    cases hplace : p.joinable with
    | false =>
      simp only [actAlive?, hplace, Bool.false_eq_true, if_false] at h
      cases h
      exact .notJoinable hplace
    | true =>
      by_cases hw : p.worker = .finished
      · simp only [actAlive?, hplace, hw, if_true] at h
        cases h
        exact .join hplace hw
      · simp [actAlive?, hplace, hw] at h
  | done => cases h

private theorem actAlive?_of_callStep (h : CallStep p c c' p') :
    p.actAlive? c = some (c', p') := by
  cases h with
  | enter r hc hopen hroom =>
    rcases hc with rfl | rfl <;>
      simp [actAlive?, BoundedQueue.offer, BoundedQueue.push?, hopen, hroom]
  | refuse r hc =>
    rcases hc with ⟨rfl, hq | hq⟩ | ⟨rfl, hq⟩ <;>
      simp [actAlive?, BoundedQueue.offer, BoundedQueue.push?, hq]
  | _ => simp [actAlive?, *]

/-- The rules are the actions of calls in a program that has not ended. -/
theorem act?_eq_some_iff :
    p.act? c = some (c', p') ↔ p.terminated = false ∧ CallStep p c c' p' := by
  cases hended : p.terminated with
  | true => simp [act?, hended]
  | false =>
    rw [act?, hended, if_neg Bool.false_ne_true]
    exact ⟨fun h => ⟨rfl, callStep_of_actAlive? h⟩, fun h => actAlive?_of_callStep h.2⟩

namespace CallStep

/-- A call leaves alone what is stored, the tally, and what cycles read besides. -/
theorem frame (h : CallStep p c c' p') :
    p'.name = p.name ∧ p'.release = p.release ∧ p'.related = p.related ∧ p'.store = p.store ∧
      p'.tally = p.tally := by
  cases h <;> exact ⟨rfl, rfl, rfl, rfl, rfl⟩

/-- The only thing that a call does to the items of the queue is to put its own report behind
them, and then it has been accepted. -/
theorem items_eq (h : CallStep p c c' p') : p'.queue.items = p.queue.items ++ c'.entered := by
  cases h with
  | enter r => rfl
  | _ => exact (List.append_nil _).symm

/-- Calls launch and join the worker, but take no report from it. -/
theorem held_eq (h : CallStep p c c' p') : p'.worker.held = p.worker.held := by
  cases h with
  | launch hworker =>
    rw [hworker]
    rfl
  | join hplace hworker =>
    rw [hworker]
    rfl
  | _ => rfl

theorem report?_eq (h : CallStep p c c' p') : c'.report? = c.report? := by
  cases h with
  | enter r hc => rcases hc with rfl | rfl <;> rfl
  | refuse r hc => rcases hc with ⟨rfl, -⟩ | ⟨rfl, -⟩ <;> rfl
  | _ => rfl

/-- A call that is over has no action. -/
theorem isOver_eq (h : CallStep p c c' p') : c.isOver = false := by
  cases h with
  | enter r hc => rcases hc with rfl | rfl <;> rfl
  | refuse r hc => rcases hc with ⟨rfl, -⟩ | ⟨rfl, -⟩ <;> rfl
  | _ => rfl

end CallStep

/-! ### Actions of the worker -/

variable [ResourceStore σ] {now : Instant}

/-- The actions of the worker of a publisher, where a cycle takes place at `now`. -/
inductive WorkerStep (now : Instant) (p : Publisher σ) : Publisher σ → Prop
  | take (r : StatusReport) (rest : List StatusReport) (hworker : p.worker = .taking)
      (hitems : p.queue.items = r :: rest) :
      WorkerStep now p { p with queue := { p.queue with items := rest }, worker := .publishing r }
  | finish (hworker : p.worker = .taking) (hitems : p.queue.items = [])
      (hclosed : p.queue.closed = true) : WorkerStep now p { p with worker := .finished }
  | run (r : StatusReport) (hworker : p.worker = .publishing r) :
      WorkerStep now p { p with
        store := (publish p.name p.release p.related now r p.store).2
        tally := p.tally.count (publish p.name p.release p.related now r p.store).1
        worker := .completing }
  | complete (hworker : p.worker = .completing) :
      WorkerStep now p { p with pending := p.pending - 1, worker := .taking }

private theorem workerStep_of_workAlive? (h : p.workAlive? now = some p') :
    WorkerStep now p p' := by
  cases hw : p.worker with
  | absent => simp [workAlive?, hw] at h
  | finished => simp [workAlive?, hw] at h
  | taking =>
    cases hi : p.queue.items with
    | nil =>
      cases hc : p.queue.closed with
      | false => simp [workAlive?, hw, BoundedQueue.pop?, hi, hc] at h
      | true =>
        simp only [workAlive?, hw, BoundedQueue.pop?, hi, hc, if_true] at h
        cases h
        exact .finish hw hi hc
    | cons r rest =>
      simp only [workAlive?, hw, BoundedQueue.pop?, hi] at h
      cases h
      exact .take r rest hw hi
  | publishing r =>
    simp only [workAlive?, hw, runCycle_eq] at h
    cases h
    exact .run r hw
  | completing =>
    simp only [workAlive?, hw] at h
    cases h
    exact .complete hw

private theorem workAlive?_of_workerStep (h : WorkerStep now p p') :
    p.workAlive? now = some p' := by
  cases h with
  | take r rest hworker hitems => simp [workAlive?, BoundedQueue.pop?, hworker, hitems]
  | finish hworker hitems hclosed =>
    simp [workAlive?, BoundedQueue.pop?, hworker, hitems, hclosed]
  | run r hworker => simp [workAlive?, hworker, runCycle_eq]
  | complete hworker => simp [workAlive?, hworker]

/-- The rules are the actions of the worker in a program that has not ended. -/
theorem work?_eq_some_iff :
    p.work? now = some p' ↔ p.terminated = false ∧ WorkerStep now p p' := by
  cases hended : p.terminated with
  | true => simp [work?, hended]
  | false =>
    rw [work?, hended, if_neg Bool.false_ne_true]
    exact ⟨fun h => ⟨rfl, workerStep_of_workAlive? h⟩, fun h => workAlive?_of_workerStep h.2⟩

end Publisher

end OperatorHealth
