import Mathlib.Logic.Function.Basic
import OperatorHealth.Proofs.Publisher.Actions
import OperatorHealth.Proofs.Run

/-!
# A publisher shared by threads

Any number of threads use one publisher, each with one call at a time, while its worker runs. What
happens is a list of events, and each of them is one action that no other thread can get into: a
thread makes a new call or takes the next action of the one it is in, the worker takes its next
action, the related objects are set, or something outside rearranges the store. Every
interleaving is such a list. A cycle is one action: it reads the related objects once, and nothing
else that it reads is changed beside it. An event that cannot happen, because a call is still under
way, an action has to wait, or the program has ended, gives `none`.

Beside the publisher and the calls, the state keeps a record of what has happened: which
hand-overs were begun, which answer each of them got, which reports entered the queue, and which
cycles were run. Nothing reads this record back.

## Main definitions

* `Request`, `Request.call`: what threads ask for, and the first action of their calls.
* `SharedPublisher`: a publisher, the calls under way, and the record.
* `SharedPublisher.Event`, `SharedPublisher.step?`, `SharedPublisher.run?`: events and runs.
* `SharedPublisher.Step`: what events do, by the rules of the publisher.

## Main results

* `SharedPublisher.step?_eq_some_iff`: the rules are the steps in a program that has not ended.
* `SharedPublisher.Step.books`: what changes the tally, the store and the cycles.
* `SharedPublisher.run?_induction`: what holds at the beginning and is kept by each event holds at
  the end.
-/

namespace OperatorHealth

/-- What a thread asks of a publisher. -/
inductive Request
  | handOver (report : StatusReport)
  | start
  | stop
  deriving DecidableEq, Repr

namespace Request

/-- The call for a request, before its first action. -/
def call : Request → Call
  | handOver r => .countIn r
  | start => .startCheck
  | stop => .halt

/-- The reports that a request hands over. -/
def reports : Request → List StatusReport
  | handOver r => [r]
  | _ => []

end Request

/-- The answer to a hand-over. -/
structure Answer (ι : Type) where
  thread : ι
  report : StatusReport
  accepted : Bool
  deriving DecidableEq

/-- A cycle that was run, with the tally and the store before and after it. -/
structure Cycle (σ : Type) where
  now : Instant
  report : StatusReport
  before : Tally × σ
  after : Tally × σ

/-- Whether a cycle was counted as an outcome, once. -/
def Cycle.IsCounted {σ : Type} (c : Cycle σ) (outcome : Outcome) : Prop :=
  c.after.1 = c.before.1.count outcome

instance {σ : Type} (c : Cycle σ) (outcome : Outcome) : Decidable (c.IsCounted outcome) :=
  inferInstanceAs (Decidable (_ = _))

/-- The answers that a call of thread `i` has just got. -/
def Call.answers {ι : Type} (i : ι) : Call → List (Answer ι)
  | returned r accepted => [⟨i, r, accepted⟩]
  | _ => []

namespace Publisher

variable {σ : Type} [ResourceStore σ]

/-- The cycle of a report that a publisher runs at `now`. -/
def cycle (p : Publisher σ) (now : Instant) (r : StatusReport) : Cycle σ where
  now := now
  report := r
  before := (p.tally, p.store)
  after := runCycle p.name p.release p.related now r p.tally p.store

/-- The cycle that is the next action of the worker, if it is one. -/
def nextCycle (now : Instant) (p : Publisher σ) : List (Cycle σ) := p.worker.held.map (p.cycle now)

/-- A cycle is counted by its outcome. -/
theorem after_cycle (p : Publisher σ) (now : Instant) (r : StatusReport) :
    (p.cycle now r).after = (p.tally.count (publish p.name p.release p.related now r p.store).1,
      (publish p.name p.release p.related now r p.store).2) :=
  runCycle_eq ..

theorem isCounted_cycle (p : Publisher σ) (now : Instant) (r : StatusReport) :
    (p.cycle now r).IsCounted (publish p.name p.release p.related now r p.store).1 :=
  congrArg Prod.fst (p.after_cycle now r)

theorem store_cycle (p : Publisher σ) (now : Instant) (r : StatusReport) :
    (p.cycle now r).after.2 = (publish p.name p.release p.related now r p.store).2 :=
  congrArg Prod.snd (p.after_cycle now r)

variable {now : Instant} {p p' : Publisher σ}

/-- The worker runs cycles for reports in the order in which it takes them out. -/
theorem WorkerStep.in_order (h : WorkerStep now p p') :
    p.worker.held ++ p.queue.items =
      (p.nextCycle now).map (·.report) ++ p'.worker.held ++ p'.queue.items := by
  cases h with
  | take r rest hworker hitems => simp [nextCycle, hworker, hitems]
  | finish hworker hitems hclosed => simp [nextCycle, hworker]
  | run r hworker => simp [nextCycle, cycle, hworker]
  | complete hworker => simp [nextCycle, hworker]

/-- The worker leaves the tally and the store alone, unless it runs a cycle. -/
theorem WorkerStep.books (h : WorkerStep now p p') :
    (p.nextCycle now = [] ∧ p'.tally = p.tally ∧ p'.store = p.store) ∨
    ∃ r, p.worker = .publishing r ∧ p.nextCycle now = [p.cycle now r] ∧
      (p'.tally, p'.store) = (p.cycle now r).after := by
  cases h with
  | take r rest hworker hitems => exact .inl ⟨by simp [nextCycle, hworker], rfl, rfl⟩
  | finish hworker hitems hclosed => exact .inl ⟨by simp [nextCycle, hworker], rfl, rfl⟩
  | run r hworker =>
    exact .inr ⟨r, hworker, by simp [nextCycle, hworker], (runCycle_eq ..).symm⟩
  | complete hworker => exact .inl ⟨by simp [nextCycle, hworker], rfl, rfl⟩

end Publisher

/-- A publisher with the calls that threads are in, and the record of what has happened, each part
of it with the oldest entry first. -/
structure SharedPublisher (ι σ : Type) where
  publisher : Publisher σ
  calls : ι → Call := fun _ => .done
  begun : List (ι × StatusReport) := []
  answers : List (Answer ι) := []
  entered : List (ι × StatusReport) := []
  cycles : List (Cycle σ) := []

namespace SharedPublisher

variable {ι σ : Type}

/-- A new publisher with its related objects, before any thread has used it. -/
def new? (name release : String) (capacity : Nat) (related : List ObjectReference) (store : σ) :
    Except CapacityError (SharedPublisher ι σ) :=
  (Publisher.new? name release capacity store).map fun p => { publisher := p.setRelated related }

/-- What can happen. -/
inductive Event (ι σ : Type)
  /-- A thread makes a call. -/
  | request (thread : ι) (request : Request)
  /-- The call of a thread takes its next action. -/
  | act (thread : ι)
  /-- The worker takes its next action, and the clock shows `now`. -/
  | work (now : Instant)
  /-- The related objects are set. -/
  | relate (related : List ObjectReference)
  /-- Something outside rearranges the store. -/
  | arrange (change : σ → σ)

/-- A call of `n` actions that nothing gets into. -/
def Event.wholeCall (i : ι) (q : Request) (n : Nat) : List (Event ι σ) :=
  .request i q :: List.replicate n (.act i)

/-! ### Events -/

section Events

variable [DecidableEq ι]

/-- Thread `i` makes a call. -/
def request (s : SharedPublisher ι σ) (i : ι) (q : Request) : SharedPublisher ι σ :=
  { s with
    calls := Function.update s.calls i q.call
    begun := s.begun ++ q.reports.map fun r => (i, r) }

/-- The call of thread `i` has come to `c`, and the publisher is `p` now. -/
def act (s : SharedPublisher ι σ) (i : ι) (c : Call) (p : Publisher σ) : SharedPublisher ι σ :=
  { s with
    publisher := p
    calls := Function.update s.calls i c
    answers := s.answers ++ c.answers i
    entered := s.entered ++
      (p.queue.items.drop s.publisher.queue.items.length).map fun r => (i, r) }

theorem calls_request (s : SharedPublisher ι σ) (i : ι) (q : Request) :
    (s.request i q).calls i = q.call :=
  Function.update_self ..

theorem calls_act (s : SharedPublisher ι σ) (i : ι) (c : Call) (p : Publisher σ) :
    (s.act i c p).calls i = c :=
  Function.update_self ..

theorem calls_act_of_ne {i j : ι} (hij : j ≠ i) (s : SharedPublisher ι σ) (c : Call)
    (p : Publisher σ) : (s.act i c p).calls j = s.calls j :=
  Function.update_of_ne hij ..

theorem calls_request_cases (s : SharedPublisher ι σ) (i j : ι) (q : Request) :
    (s.request i q).calls j = q.call ∨ (s.request i q).calls j = s.calls j := by
  by_cases hij : j = i
  · exact .inl (hij ▸ s.calls_request i q)
  · exact .inr (Function.update_of_ne hij ..)

theorem calls_act_cases (s : SharedPublisher ι σ) (i j : ι) (c : Call) (p : Publisher σ) :
    (s.act i c p).calls j = c ∨ (s.act i c p).calls j = s.calls j := by
  by_cases hij : j = i
  · exact .inl (hij ▸ s.calls_act i c p)
  · exact .inr (s.calls_act_of_ne hij c p)

variable [ResourceStore σ]

/-- The state after an event in a program that goes on. -/
def stepAlive? (s : SharedPublisher ι σ) : Event ι σ → Option (SharedPublisher ι σ)
  | .request i q => if (s.calls i).isOver then some (s.request i q) else none
  | .act i => (s.publisher.act? (s.calls i)).map fun (c, p) => s.act i c p
  | .work now => (s.publisher.work? now).map fun p =>
      { s with publisher := p, cycles := s.cycles ++ s.publisher.nextCycle now }
  | .relate related => some { s with publisher := s.publisher.setRelated related }
  | .arrange change =>
      some { s with publisher := { s.publisher with store := change s.publisher.store } }

/-- The state after an event. Nothing happens in a program that has ended. -/
def step? (s : SharedPublisher ι σ) (e : Event ι σ) : Option (SharedPublisher ι σ) :=
  if s.publisher.terminated then none else s.stepAlive? e

/-- The state after a list of events. -/
def run? (s : SharedPublisher ι σ) (es : List (Event ι σ)) : Option (SharedPublisher ι σ) :=
  es.foldlM step? s

end Events

/-! ### Reading the record -/

/-- Nothing is left for the worker to run a cycle for. -/
def IsDrained (s : SharedPublisher ι σ) : Prop :=
  s.publisher.queue.items = [] ∧ s.publisher.worker.held = []

/-- The reports that were accepted, with the threads that handed them over, in the order of the
answers. -/
def accepted (s : SharedPublisher ι σ) : List (ι × StatusReport) :=
  (s.answers.filter (·.accepted)).map fun a => (a.thread, a.report)

/-- The reports whose cycles were run. -/
def processed (s : SharedPublisher ι σ) : List StatusReport := s.cycles.map (·.report)

/-- The clock readings of the cycles. -/
def clock (s : SharedPublisher ι σ) : List Instant := s.cycles.map (·.now)

variable [DecidableEq ι]

/-- The reports that thread `i` began to hand over. -/
def begunBy (s : SharedPublisher ι σ) (i : ι) : List StatusReport :=
  (s.begun.filter (·.1 = i)).map (·.2)

/-- The reports for which thread `i` has an answer. -/
def answeredTo (s : SharedPublisher ι σ) (i : ι) : List StatusReport :=
  (s.answers.filter (·.thread = i)).map (·.report)

/-- The reports of thread `i` that were accepted. -/
def acceptedFrom (s : SharedPublisher ι σ) (i : ι) : List StatusReport :=
  (s.accepted.filter (·.1 = i)).map (·.2)

/-! ### Steps and runs -/

omit [DecidableEq ι] in
theorem eq_of_new? {name release : String} {capacity : Nat} {related : List ObjectReference}
    {store : σ} {s : SharedPublisher ι σ} (h : new? name release capacity related store = .ok s) :
    ∃ queue : BoundedQueue StatusReport, queue.items = [] ∧ queue.closed = false ∧
      queue.capacity = capacity ∧
      s = { publisher := { name, release, queue, store, related } } := by
  by_cases hpos : 0 < capacity
  · simp only [new?, Publisher.new?, BoundedQueue.new?, hpos, dite_true, Except.map] at h
    cases h
    exact ⟨_, rfl, rfl, rfl, rfl⟩
  · simp only [new?, Publisher.new?, BoundedQueue.new?, hpos, dite_false, Except.map] at h
    cases h

variable [ResourceStore σ] {s s' : SharedPublisher ι σ}

/-- What events do, by the rules of the publisher. -/
inductive Step (s : SharedPublisher ι σ) : Event ι σ → SharedPublisher ι σ → Prop
  | request (i : ι) (q : Request) (hover : (s.calls i).isOver = true) :
      Step s (.request i q) (s.request i q)
  | act (i : ι) {c : Call} {p : Publisher σ} (hact : s.publisher.CallStep (s.calls i) c p) :
      Step s (.act i) (s.act i c p)
  | work {now : Instant} {p : Publisher σ} (hwork : s.publisher.WorkerStep now p) :
      Step s (.work now)
        { s with publisher := p, cycles := s.cycles ++ s.publisher.nextCycle now }
  | relate (related : List ObjectReference) :
      Step s (.relate related) { s with publisher := s.publisher.setRelated related }
  | arrange (change : σ → σ) :
      Step s (.arrange change)
        { s with publisher := { s.publisher with store := change s.publisher.store } }

private theorem stepAlive?_eq_some_iff {e : Event ι σ} (hlive : s.publisher.terminated = false) :
    s.stepAlive? e = some s' ↔ s.Step e s' := by
  constructor
  · intro h
    cases e with
    | request i q =>
      simp only [stepAlive?] at h
      split at h <;> cases h
      exact .request i q ‹_›
    | act i =>
      obtain ⟨⟨c, p⟩, hact, rfl⟩ := Option.map_eq_some_iff.mp h
      exact .act i (Publisher.act?_eq_some_iff.mp hact).2
    | work now =>
      obtain ⟨p, hwork, rfl⟩ := Option.map_eq_some_iff.mp h
      exact .work (Publisher.work?_eq_some_iff.mp hwork).2
    | relate related => cases h; exact .relate related
    | arrange change => cases h; exact .arrange change
  · intro h
    cases h with
    | request i q hover => simp [stepAlive?, hover]
    | act i hact => simp [stepAlive?, Publisher.act?_eq_some_iff.mpr ⟨hlive, hact⟩]
    | work hwork => simp [stepAlive?, Publisher.work?_eq_some_iff.mpr ⟨hlive, hwork⟩]
    | relate | arrange => rfl

/-- The rules are the steps in a program that has not ended. -/
theorem step?_eq_some_iff {e : Event ι σ} :
    s.step? e = some s' ↔ s.publisher.terminated = false ∧ s.Step e s' := by
  cases hended : s.publisher.terminated with
  | true => simp [step?, hended]
  | false =>
    rw [step?, hended, if_neg Bool.false_ne_true, stepAlive?_eq_some_iff hended]
    exact (and_iff_right rfl).symm

/-- The name and the release stay the same. -/
theorem Step.name_release_eq {e : Event ι σ} (h : s.Step e s') :
    s'.publisher.name = s.publisher.name ∧ s'.publisher.release = s.publisher.release := by
  cases h with
  | act i hact => exact ⟨hact.frame.1, hact.frame.2.1⟩
  | work hwork => cases hwork <;> exact ⟨rfl, rfl⟩
  | _ => exact ⟨rfl, rfl⟩

/-- The related objects change only when they are set. -/
theorem Step.related_eq {e : Event ι σ} (h : s.Step e s') (he : ∀ rs, e ≠ .relate rs) :
    s'.publisher.related = s.publisher.related := by
  cases h with
  | relate rs => exact absurd rfl (he rs)
  | act i hact => exact hact.frame.2.2.1
  | work hwork => cases hwork <;> rfl
  | _ => rfl

/-- The books, which are the tally, the store and the cycles, change only when something outside
rearranges the store, and when the worker runs a cycle. -/
theorem Step.books {e : Event ι σ} (h : s.Step e s') :
    (s'.cycles = s.cycles ∧ s'.publisher.tally = s.publisher.tally ∧
      s'.publisher.store = s.publisher.store) ∨
    (∃ f, e = .arrange f ∧ s'.cycles = s.cycles ∧ s'.publisher.tally = s.publisher.tally ∧
      s'.publisher.store = f s.publisher.store) ∨
    ∃ now r, e = .work now ∧ s.publisher.worker = .publishing r ∧
      s'.cycles = s.cycles ++ [s.publisher.cycle now r] ∧
      (s'.publisher.tally, s'.publisher.store) = (s.publisher.cycle now r).after := by
  cases h with
  | request i q hover => exact .inl ⟨rfl, rfl, rfl⟩
  | relate rs => exact .inl ⟨rfl, rfl, rfl⟩
  | arrange f => exact .inr (.inl ⟨f, rfl, rfl, rfl, rfl⟩)
  | act i hact => exact .inl ⟨rfl, hact.frame.2.2.2.2, hact.frame.2.2.2.1⟩
  | @work now p hwork =>
    rcases hwork.books with ⟨hnone, htally, hstore⟩ | ⟨r, hworker, hcycle, hafter⟩
    · exact .inl ⟨by simp [hnone], htally, hstore⟩
    · exact .inr (.inr ⟨now, r, rfl, hworker, by simp [hcycle], hafter⟩)

theorem run?_singleton {e : Event ι σ} (h : s.Step e s') (hlive : s.publisher.terminated = false) :
    s.run? [e] = some s' := by
  simp [run?, step?_eq_some_iff.mpr ⟨hlive, h⟩]

/-- A run can begin with any step of a program that has not ended. -/
theorem Step.run?_cons {t : SharedPublisher ι σ} {e : Event ι σ} {es : List (Event ι σ)}
    (h : s.Step e t) (hlive : s.publisher.terminated = false) (hrun : t.run? es = some s') :
    s.run? (e :: es) = some s' :=
  foldlM_cons_eq_some_iff.mpr ⟨t, step?_eq_some_iff.mpr ⟨hlive, h⟩, hrun⟩

theorem run?_append {s₀ : SharedPublisher ι σ} {es es' : List (Event ι σ)}
    (hrun : s₀.run? es = some s) (hlater : s.run? es' = some s') :
    s₀.run? (es ++ es') = some s' :=
  foldlM_append_eq_some_iff.mpr ⟨s, hrun, hlater⟩

theorem Step.act_of_calls {i : ι} {c c' : Call} {p : Publisher σ} (hcall : s.calls i = c)
    (h : s.publisher.CallStep c c' p) : s.Step (.act i) (s.act i c' p) :=
  .act i (hcall ▸ h)

/-- A start that nothing gets into launches the worker. -/
theorem exists_run?_start {i : ι} (hs : s.publisher.IsUnstarted) (hcall : s.calls i = .startCheck) :
    ∃ t, s.run? (List.replicate 4 (.act i)) = some t ∧
      t.publisher = { s.publisher with running := true, worker := .taking, joinable := true } ∧
      t.calls i = .done ∧ t.cycles = s.cycles ∧ t.answers = s.answers := by
  let s₁ := s.act i .reserve s.publisher
  let s₂ := s₁.act i .launch { s.publisher with running := true }
  let s₃ := s₂.act i .place { s.publisher with running := true, worker := .taking }
  let s₄ := s₃.act i .done
    { s.publisher with running := true, worker := .taking, joinable := true }
  have h₁ : s.Step (.act i) s₁ := .act_of_calls hcall (.startOpen hs.isOpen)
  have h₂ : s₁.Step (.act i) s₂ := .act_of_calls (s.calls_act i .reserve _) (.reserve hs.idle)
  have h₃ : s₂.Step (.act i) s₃ := .act_of_calls (s₁.calls_act i .launch _) (.launch hs.worker)
  have h₄ : s₃.Step (.act i) s₄ := .act_of_calls (s₂.calls_act i .place _) (.place hs.place)
  refine ⟨s₄, h₁.run?_cons hs.live <| h₂.run?_cons hs.live <| h₃.run?_cons hs.live <|
    run?_singleton h₄ hs.live, rfl, calls_act .., rfl, ?_⟩
  simp [s₄, s₃, s₂, s₁, act, Call.answers]

/-- What holds at the beginning of a run, and is kept by each of its events, holds at the end. -/
theorem run?_induction {P : SharedPublisher ι σ → Prop} {es : List (Event ι σ)}
    (hrun : s.run? es = some s') (hinit : P s)
    (hstep : ∀ e ∈ es, ∀ t t', t.Step e t' → P t → P t') : P s' :=
  foldlM_induction hrun hinit fun e he t t' het =>
    hstep e he t t' (step?_eq_some_iff.mp het).2

theorem name_release_eq {name release : String} {capacity : Nat}
    {related : List ObjectReference} {store : σ} {s₀ : SharedPublisher ι σ}
    {es : List (Event ι σ)} (hnew : new? name release capacity related store = .ok s₀)
    (hrun : s₀.run? es = some s) : s.publisher.name = name ∧ s.publisher.release = release := by
  refine run?_induction (P := fun s => s.publisher.name = name ∧ s.publisher.release = release)
    hrun ?_ fun e _ t t' h ht => ?_
  · obtain ⟨queue, -, -, -, rfl⟩ := eq_of_new? hnew
    exact ⟨rfl, rfl⟩
  · exact ⟨h.name_release_eq.1.trans ht.1, h.name_release_eq.2.trans ht.2⟩

end SharedPublisher

end OperatorHealth
