import OperatorHealth.Publication
import OperatorHealth.Queue

/-!
# The publisher

Producers hand reports to a queue, and one worker takes them out, in order, and runs a cycle for
each. A report is pending from the moment its producer begins to hand it over until the worker is
done with it or the producer has given up.

All that threads do here is cut into the actions that no other thread can get into: a call is
taken from one action to the next by `Publisher.act?`, and the worker by `Publisher.work?`. An
action that has to wait gives `none`. A whole call by one thread alone is a fixed order of these
actions, where the worker goes on whenever the call has to wait.

Starts and stops take no lock, so they can get into each other. A thread that starts the publisher
first becomes the one to launch the worker, then launches it, and at last puts it where a stop looks
for it. A stop that comes in between finds no worker to wait for, although one may be at work. If a
stop lets another start launch a worker before the end of the first one was seen, the second one
finds no place, and the program ends. What the two may do side by side until then is left out.

## Main definitions

* `Publisher`: the state that threads share, with the state of the worker.
* `Call`, `Publisher.act?`: calls under way and their actions.
* `Publisher.work?`: the actions of the worker.
* `Publisher.enqueue`, `Publisher.start`, `Publisher.stop`, `Publisher.settle`: whole calls.
-/

namespace OperatorHealth

/-- What the worker is about to do. -/
inductive Worker
  /-- There is no worker: none was launched, or it is gone and a stop has seen that. -/
  | absent
  /-- It takes the next report. -/
  | taking
  /-- It runs the cycle of a report. -/
  | publishing (report : StatusReport)
  /-- It counts its report as no longer pending. -/
  | completing
  /-- It has found the queue closed and empty, and is gone, but no stop has seen that. -/
  | finished
  deriving DecidableEq, Repr

/-- A publisher for the resource called `name`. -/
structure Publisher (σ : Type) where
  name : String
  release : String
  queue : BoundedQueue StatusReport
  store : σ
  related : List ObjectReference := []
  running : Bool := false
  worker : Worker := .absent
  /-- The worker was put where a stop looks for it, and no stop has seen its end. -/
  joinable : Bool := false
  pending : Nat := 0
  tally : Tally := {}
  /-- The program has ended, because of two workers at a time. -/
  terminated : Bool := false

namespace Publisher

variable {σ : Type}

/-- A publisher that is not started. -/
def new? (name release : String) (capacity : Nat) (store : σ) :
    Except CapacityError (Publisher σ) :=
  (BoundedQueue.new? capacity).map fun queue => { name, release, queue, store }

/-- Whether no report is pending. -/
def isIdle (p : Publisher σ) : Bool := p.pending == 0

/-- The publisher with other related objects. -/
def setRelated (p : Publisher σ) (related : List ObjectReference) : Publisher σ :=
  { p with related }

end Publisher

/-! ### Calls under way -/

/-- A call under way, by what it is about to do. -/
inductive Call
  /-- Handing over a report: count it as pending. -/
  | countIn (report : StatusReport)
  /-- Handing over: see whether the queue is closed. -/
  | checkClosed (report : StatusReport)
  /-- Handing over: see whether there is a worker to wait for. -/
  | checkRunning (report : StatusReport)
  /-- Handing over without a worker: push if there is room. -/
  | offer (report : StatusReport)
  /-- Handing over with a worker: push, waiting for room. -/
  | push (report : StatusReport)
  /-- Handing over: give up. -/
  | countOut (report : StatusReport)
  /-- Handing over is done. -/
  | returned (report : StatusReport) (accepted : Bool)
  /-- Starting: see whether the queue is closed. -/
  | startCheck
  /-- Starting: become the one to launch the worker. -/
  | reserve
  /-- Starting: launch the worker. -/
  | launch
  /-- Starting: put the worker where a stop looks for it. -/
  | place
  /-- Stopping: make new producers not wait for the worker. -/
  | halt
  /-- Stopping: close the queue. -/
  | closeQueue
  /-- Stopping: wait for the worker to be gone. -/
  | join
  /-- Starting or stopping is done. -/
  | done
  deriving DecidableEq, Repr

namespace Publisher

variable {σ : Type}

/-- The next action of a call in a program that goes on. A worker is launched without waiting for
the end of an earlier one. If that has not been seen, the program ends. A stop does not wait for a
worker that is not in its place. -/
def actAlive? (c : Call) (p : Publisher σ) : Option (Call × Publisher σ) :=
  match c with
  | .countIn r => some (.checkClosed r, { p with pending := p.pending + 1 })
  | .checkClosed r => some (if p.queue.closed then .countOut r else .checkRunning r, p)
  | .checkRunning r => some (if p.running then .push r else .offer r, p)
  | .offer r =>
    match p.queue.offer r with
    | (true, queue) => some (.returned r true, { p with queue })
    | (false, queue) => some (.countOut r, { p with queue })
  | .push r =>
    match p.queue.push? r with
    | some (true, queue) => some (.returned r true, { p with queue })
    | some (false, queue) => some (.countOut r, { p with queue })
    | none => none
  | .countOut r => some (.returned r false, { p with pending := p.pending - 1 })
  | .returned .. => none
  | .startCheck => some (if p.queue.closed then .done else .reserve, p)
  | .reserve => some (if p.running then .done else .launch, { p with running := true })
  | .launch =>
    if p.worker = .absent then some (.place, { p with worker := .taking })
    else some (.launch, { p with terminated := true })
  | .place =>
    if p.joinable then some (.place, { p with terminated := true })
    else some (.done, { p with joinable := true })
  | .halt => some (.closeQueue, { p with running := false })
  | .closeQueue => some (.join, { p with queue := p.queue.close })
  | .join =>
    if p.joinable then
      if p.worker = .finished then some (.done, { p with worker := .absent, joinable := false })
      else none
    else some (.done, p)
  | .done => none

/-- The next action of a call. Nothing happens in a program that has ended. -/
def act? (c : Call) (p : Publisher σ) : Option (Call × Publisher σ) :=
  if p.terminated then none else p.actAlive? c

/-- A call taken as far as it gets in `n` actions. -/
def performFor : Nat → Call → Publisher σ → Call × Publisher σ
  | 0, c, p => (c, p)
  | n + 1, c, p =>
    match p.act? c with
    | some (c, p) => performFor n c p
    | none => (c, p)

/-- A call taken as far as it gets. No call has more than five actions. -/
def perform (c : Call) (p : Publisher σ) : Call × Publisher σ := performFor 5 c p

/-! ### The worker -/

variable [ResourceStore σ]

/-- The next action of the worker in a program that goes on. A cycle it runs takes place at `now`.
-/
def workAlive? (now : Instant) (p : Publisher σ) : Option (Publisher σ) :=
  match p.worker with
  | .absent => none
  | .taking =>
    match p.queue.pop? with
    | some (some r, queue) => some { p with queue, worker := .publishing r }
    | some (none, queue) => some { p with queue, worker := .finished }
    | none => none
  | .publishing r =>
    let (tally, store) := runCycle p.name p.release p.related now r p.tally p.store
    some { p with store, tally, worker := .completing }
  | .completing => some { p with pending := p.pending - 1, worker := .taking }
  | .finished => none

/-- The next action of the worker. Nothing happens in a program that has ended. -/
def work? (now : Instant) (p : Publisher σ) : Option (Publisher σ) :=
  if p.terminated then none else p.workAlive? now

/-- The number of actions that the worker has before it if nothing more is pushed. -/
def workLeft (p : Publisher σ) : Nat :=
  3 * p.queue.size +
    match p.worker with
    | .absent => 0
    | .taking => 1
    | .publishing _ => 3
    | .completing => 2
    | .finished => 0

/-- The publisher after `n` actions of the worker, or as many as it has. -/
def workFor : Nat → Instant → Publisher σ → Publisher σ
  | 0, _, p => p
  | n + 1, now, p =>
    match p.work? now with
    | some p => workFor n now p
    | none => p

/-- The publisher after all that the worker can do. -/
def settle (now : Instant) (p : Publisher σ) : Publisher σ := p.workFor p.workLeft now

/-! ### Whole calls -/

/-- Hands over a report. The answer says whether it was accepted. -/
def enqueue (now : Instant) (report : StatusReport) (p : Publisher σ) : Bool × Publisher σ :=
  match p.perform (.countIn report) with
  | (.returned _ accepted, p) => (accepted, p)
  | (c, p) =>
    match (p.settle now).perform c with
    | (.returned _ accepted, p) => (accepted, p)
    | (_, p) => (false, p)

/-- Starts the worker, unless there was one before. -/
def start (p : Publisher σ) : Publisher σ := (p.perform .startCheck).2

/-- Closes the queue and lets the worker finish what is in it. Without a worker it stays there. -/
def stop (now : Instant) (p : Publisher σ) : Publisher σ :=
  let (c, p) := p.perform .halt
  ((p.settle now).perform c).2

end Publisher

end OperatorHealth
