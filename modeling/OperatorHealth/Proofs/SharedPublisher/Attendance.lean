import OperatorHealth.Proofs.SharedPublisher.Pending

/-!
# A publisher with a worker

A worker goes only after it has found the queue closed and empty. So once a worker has been
launched, one is there unless the queue is closed and empty, whatever threads do to start the
publisher again or to stop it. As long as the program does not end, a worker that is left to itself
goes on until no report is left. Without a launch no report ever has its cycle.

## Main definitions

* `BoundedQueue.IsSpent`, `Publisher.IsAttended`: a queue that is closed and empty, and a publisher
  with a worker as long as its queue is not.
* `Publisher.idleWork`: the work that is left when the worker has nothing to do.
* `SharedPublisher.Takes`: a run in which a thread takes a given action.

## Main results

* `SharedPublisher.Takes.induction`: what holds from an action on.
* `SharedPublisher.isAttended`: once there has been a worker, the publisher is attended.
* `SharedPublisher.cycles_eq_nil`: without a worker nothing is published.
* `SharedPublisher.exists_run?_works`: a worker that is left to itself.
-/

namespace OperatorHealth

/-- A queue is closed and empty, so nobody will ever find an item in it. -/
structure BoundedQueue.IsSpent {α : Type} (q : BoundedQueue α) : Prop where
  closed : q.closed = true
  items : q.items = []

namespace Publisher

variable {σ : Type} {p p' : Publisher σ} {c c' : Call}

/-- A worker is there, and not about to go, unless the queue is closed and empty. -/
def IsAttended (p : Publisher σ) : Prop :=
  p.worker = .absent ∨ p.worker = .finished → p.queue.IsSpent

/-- A worker that has gone has left a closed and empty queue. -/
def IsOrderly (p : Publisher σ) : Prop := p.worker = .finished → p.queue.IsSpent

theorem isAttended_of_taking (h : p.worker = .taking) : p.IsAttended := by
  rintro (hgone | hgone) <;> cases h.symm.trans hgone

/-! ### Actions of calls -/

namespace CallStep

theorem isSpent (h : CallStep p c c' p') (hp : p.queue.IsSpent) : p'.queue.IsSpent := by
  cases h with
  | enter r hc hopen => exact absurd (hopen.symm.trans hp.closed) Bool.false_ne_true
  | closeQueue => exact ⟨rfl, hp.items⟩
  | _ => exact hp

theorem isAttended (h : CallStep p c c' p') (hp : p.IsAttended) : p'.IsAttended := by
  intro hgone
  refine h.isSpent (hp ?_)
  cases h with
  | launch hworker => exact .inl hworker
  | join hplace hworker => exact .inr hworker
  | _ => exact hgone

theorem isOrderly (h : CallStep p c c' p') (hp : p.IsOrderly) : p'.IsOrderly := by
  intro hgone
  refine h.isSpent (hp ?_)
  cases h with
  | launch => cases hgone
  | join => cases hgone
  | _ => exact hgone

/-- Whoever launches a worker, or ends the program by that, leaves the publisher attended. -/
theorem isAttended_of_launch (h : CallStep p .launch c' p') (hp : p.IsOrderly) :
    p'.IsAttended := by
  cases h with
  | launch => exact isAttended_of_taking rfl
  | crowd hworker => exact fun hgone => hp (hgone.resolve_left hworker)
  | enter r hc => rcases hc with hc | hc <;> cases hc
  | refuse r hc => rcases hc with ⟨hc, -⟩ | ⟨hc, -⟩ <;> cases hc

/-- Only a launch brings a worker. -/
theorem worker_absent (h : CallStep p c c' p') (hc : c ≠ .launch) (hworker : p.worker = .absent) :
    p'.worker = .absent := by
  cases h with
  | launch => exact absurd rfl hc
  | join => rfl
  | _ => exact hworker

end CallStep

/-! ### Actions of the worker -/

namespace WorkerStep

variable [ResourceStore σ] {now : Instant}

theorem isAttended (h : WorkerStep now p p') : p'.IsAttended := by
  intro hgone
  cases h with
  | finish hworker hitems hclosed => exact ⟨hclosed, hitems⟩
  | _ => rcases hgone with hgone | hgone <;> cases hgone

theorem worker_ne_absent (h : WorkerStep now p p') : p.worker ≠ .absent := by
  intro habsent
  cases h with
  | take r rest hworker => cases habsent.symm.trans hworker
  | finish hworker => cases habsent.symm.trans hworker
  | run r hworker => cases habsent.symm.trans hworker
  | complete hworker => cases habsent.symm.trans hworker

end WorkerStep

/-! ### The work that is left -/

/-- The work that is left when the worker has nothing to do: at an open queue it waits for a
report. -/
def idleWork (p : Publisher σ) : Nat := if p.queue.closed then 0 else 1

/-- A worker that has something to do can do it. -/
theorem exists_workerStep [ResourceStore σ] (hattended : p.IsAttended)
    (hleft : p.idleWork < p.workLeft) (now : Instant) :
    ∃ p', WorkerStep now p p' ∧ p'.workLeft + 1 = p.workLeft ∧ p'.idleWork = p.idleWork ∧
      p'.running = p.running ∧ p'.terminated = p.terminated := by
  have hthere : ¬ (p.worker = .absent ∨ p.worker = .finished) := fun hgone => by
    have hspent := hattended hgone
    rcases hgone with hgone | hgone <;>
      simp [idleWork, workLeft, BoundedQueue.size, hgone, hspent.closed, hspent.items] at hleft
  cases hworker : p.worker with
  | absent => exact absurd (.inl hworker) hthere
  | finished => exact absurd (.inr hworker) hthere
  | taking =>
    cases hitems : p.queue.items with
    | nil =>
      have hclosed : p.queue.closed = true := by
        by_contra hopen
        simp [idleWork, workLeft, BoundedQueue.size, hworker, hitems, hopen] at hleft
      refine ⟨_, .finish hworker hitems hclosed, ?_, rfl, rfl, rfl⟩
      simp [workLeft, BoundedQueue.size, hworker, hitems]
    | cons r rest =>
      refine ⟨_, .take r rest hworker hitems, ?_, rfl, rfl, rfl⟩
      simp only [workLeft, BoundedQueue.size, hworker, hitems, List.length_cons]
      omega
  | publishing r =>
    refine ⟨_, .run r hworker, ?_, rfl, rfl, rfl⟩
    simp only [workLeft, hworker, BoundedQueue.size]
  | completing =>
    refine ⟨_, .complete hworker, ?_, rfl, rfl, rfl⟩
    simp only [workLeft, hworker, BoundedQueue.size]

/-- Nothing is queued or in hand when the worker has nothing to do. -/
theorem eq_nil_of_workLeft (h : p.workLeft = p.idleWork) :
    p.queue.items = [] ∧ p.worker.load = 0 := by
  have hle : p.idleWork ≤ 1 := by
    unfold idleWork
    split <;> omega
  rw [← h, workLeft] at hle
  refine ⟨List.length_eq_zero_iff.mp ?_, ?_⟩
  · rw [BoundedQueue.size] at hle
    omega
  · cases hworker : p.worker with
    | publishing r => simp [hworker] at hle
    | completing => simp [hworker] at hle
    | _ => rfl

theorem work?_eq_none_of_workLeft [ResourceStore σ] (h : p.workLeft = p.idleWork)
    (now : Instant) : p.work? now = none := by
  obtain ⟨hitems, hload⟩ := eq_nil_of_workLeft h
  rw [Option.eq_none_iff_forall_ne_some]
  intro p' hwork
  cases (work?_eq_some_iff.mp hwork).2 with
  | take r rest hworker hitems' => cases hitems.symm.trans hitems'
  | finish hworker _ hclosed =>
    simp [workLeft, idleWork, BoundedQueue.size, hworker, hitems, hclosed] at h
  | run r hworker => simp [hworker, Worker.load] at hload
  | complete hworker => simp [hworker, Worker.load] at hload

end Publisher

namespace SharedPublisher

variable {ι σ : Type} [DecidableEq ι] [ResourceStore σ] {s₀ s s' t : SharedPublisher ι σ}
  {e : Event ι σ} {name release : String} {capacity : Nat} {related : List ObjectReference}
  {store : σ} {es before after : List (Event ι σ)} {i : ι}

/-! ### From a launch on -/

theorem Step.isOrderly (h : s.Step e s') (hs : s.publisher.IsOrderly) : s'.publisher.IsOrderly := by
  cases h with
  | act i hact => exact hact.isOrderly hs
  | work hwork => exact fun hgone => hwork.isAttended (.inr hgone)
  | _ => exact hs

theorem Step.isAttended (h : s.Step e s') (hs : s.publisher.IsAttended) :
    s'.publisher.IsAttended := by
  cases h with
  | act i hact => exact hact.isAttended hs
  | work hwork => exact hwork.isAttended
  | _ => exact hs

theorem isOrderly (hnew : new? name release capacity related store = .ok s₀)
    (hrun : s₀.run? es = some s) : s.publisher.IsOrderly := by
  refine run?_induction (P := fun s => s.publisher.IsOrderly) hrun ?_ fun e _ t t' h => h.isOrderly
  obtain ⟨queue, -, -, -, rfl⟩ := eq_of_new? hnew
  exact fun h => (nomatch h)

/-- Somewhere in a run from a state, a thread takes the action `c` of its call. -/
def Takes (s₀ : SharedPublisher ι σ) (es : List (Event ι σ)) (c : Call) : Prop :=
  ∃ before i after t, es = before ++ .act i :: after ∧ s₀.run? before = some t ∧ t.calls i = c

/-- A run up to an action and on from there. -/
theorem run?_append_act (hrun : s₀.run? (before ++ .act i :: after) = some s)
    (hbefore : s₀.run? before = some t) : ∃ c p, t.publisher.CallStep (t.calls i) c p ∧
      (t.act i c p).run? after = some s := by
  obtain ⟨t', ht', hrun⟩ := foldlM_append_eq_some_iff.mp hrun
  obtain rfl : t = t' := Option.some.inj (hbefore.symm.trans ht')
  obtain ⟨u, hu, hrun⟩ := foldlM_cons_eq_some_iff.mp hrun
  cases (step?_eq_some_iff.mp hu).2 with
  | act i hact => exact ⟨_, _, hact, hrun⟩

/-- What an action of a call brings about, and each event keeps, holds from that action on. -/
theorem Takes.induction {P : SharedPublisher ι σ → Prop} {c : Call} (htakes : s₀.Takes es c)
    (hrun : s₀.run? es = some s)
    (hinit : ∀ before t i c' p, s₀.run? before = some t → t.publisher.CallStep c c' p →
      P (t.act i c' p))
    (hstep : ∀ e t t', t.Step e t' → P t → P t') : P s := by
  obtain ⟨before, i, after, t, rfl, hbefore, hcall⟩ := htakes
  obtain ⟨c', p, hact, hafter⟩ := run?_append_act hrun hbefore
  exact run?_induction hafter (hinit before t i c' p hbefore (hcall ▸ hact)) fun e _ => hstep e

/-- Once there has been a worker, the publisher is attended. -/
theorem isAttended (hnew : new? name release capacity related store = .ok s₀)
    (hrun : s₀.run? es = some s) (hlaunch : s₀.Takes es .launch) : s.publisher.IsAttended :=
  hlaunch.induction (P := fun s => s.publisher.IsAttended) hrun
    (fun _ _ _ _ _ hbefore hact => hact.isAttended_of_launch (isOrderly hnew hbefore))
    fun _ _ _ h => h.isAttended

/-- Without a launch there is no worker, and no cycle is ever run. -/
theorem cycles_eq_nil (hnew : new? name release capacity related store = .ok s₀)
    (hrun : s₀.run? es = some s) (hlaunch : ¬ s₀.Takes es .launch) :
    s.publisher.worker = .absent ∧ s.cycles = [] := by
  refine foldlM_induction_of_split (P := fun s => s.publisher.worker = .absent ∧ s.cycles = [])
    hrun ?_ fun before e after t t' hes hbefore het ht => ?_
  · obtain ⟨queue, -, -, -, rfl⟩ := eq_of_new? hnew
    exact ⟨rfl, rfl⟩
  · cases (step?_eq_some_iff.mp het).2 with
    | act i hact =>
      have hcall : t.calls i ≠ .launch := fun hcall =>
        hlaunch ⟨before, i, after, t, hes, hbefore, hcall⟩
      exact ⟨hact.worker_absent hcall ht.1, ht.2⟩
    | work hwork => exact absurd ht.1 hwork.worker_ne_absent
    | _ => exact ht

/-! ### A worker that is left to itself -/

/-- The worker takes its actions one after another, whatever the clock shows, until it has nothing
to do. Calls stay where they are. -/
theorem exists_run?_works (hattended : s.publisher.IsAttended)
    (hlive : s.publisher.terminated = false) {nows : List Instant}
    (hleft : nows.length + s.publisher.idleWork = s.publisher.workLeft) :
    ∃ t, s.run? (nows.map .work) = some t ∧ t.calls = s.calls ∧
      t.publisher.running = s.publisher.running ∧
      t.publisher.idleWork = s.publisher.idleWork ∧
      t.publisher.workLeft = t.publisher.idleWork := by
  induction nows generalizing s with
  | nil => exact ⟨s, rfl, rfl, rfl, rfl, by rw [← hleft, List.length_nil, Nat.zero_add]⟩
  | cons now nows ih =>
    rw [List.length_cons] at hleft
    obtain ⟨p, hwork, hleft', hidle, hrunning, hlive'⟩ :=
      Publisher.exists_workerStep hattended (by omega) now
    have hstep := Step.work hwork
    obtain ⟨t, hrun, hcalls, ht, hidle', hdone⟩ := ih (s := { s with
      publisher := p, cycles := s.cycles ++ s.publisher.nextCycle now })
      hwork.isAttended (hlive'.trans hlive) (by dsimp only; omega)
    exact ⟨t, run?_append (run?_singleton hstep hlive) hrun, hcalls, ht.trans hrunning,
      hidle'.trans hidle, hdone⟩

end SharedPublisher

end OperatorHealth
