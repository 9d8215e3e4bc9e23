import OperatorHealth.Proofs.LiveReporter.Basic

/-!
# A thread and the worker

A thread that is the only one to use a reporter starts it, tells it signals, and lets the worker do
all it can. As long as its calls do not have to wait, what it does is what the whole calls do, and
it is a run of the reporter.

## Main definitions

* `LiveReporter.Reaches`: a run leads from one state to another.
* `LiveReporter.IsIdle`: one thread has the reporter to itself, and is in no call.

## Main results

* `LiveReporter.IsIdle.reaches_start`, `LiveReporter.IsIdle.reaches_report`,
  `LiveReporter.IsIdle.reaches_settle`: whole calls.
* `LiveReporter.IsIdle.reaches_rearrange`, `LiveReporter.IsIdle.reaches_change`: what happens around
  the thread.
-/

namespace OperatorHealth

/-! ### Calls that do not end the program -/

namespace Publisher

variable {σ : Type} {p : Publisher σ} {c : Call}

/-- The program has not ended in a call that has come to its end. -/
theorem live_of_isOver {n : Nat} (hlive : p.terminated = false)
    (hover : (p.performFor n c).1.isOver = true) : (p.performFor n c).2.terminated = false := by
  induction n generalizing c p with
  | zero => exact hlive
  | succ n ih =>
    rw [performFor] at hover ⊢
    cases hact : p.act? c with
    | none => exact hlive
    | some next =>
      obtain ⟨c', p'⟩ := next
      rw [hact] at hover
      cases hended : p'.terminated with
      | false => exact ih hended hover
      | true =>
        -- the thread that ends the program does not come to the end of its call
        have hstuck : p'.performFor n c' = (c', p') := by
          cases n <;> simp [performFor, act?, hended]
        simp only [hstuck] at hover
        cases (act?_eq_some_iff.mp hact).2 with
        | crowd | displace => cases hover
        | _ => exact absurd (hlive.symm.trans hended) Bool.false_ne_true

theorem terminated_workFor [ResourceStore σ] (n : Nat) (now : Instant) (p : Publisher σ) :
    (p.workFor n now).terminated = p.terminated := by
  induction n generalizing p with
  | zero => rfl
  | succ n ih =>
    rw [workFor]
    cases hwork : p.work? now with
    | none => rfl
    | some p' =>
      have hkept : p'.terminated = p.terminated := by
        cases (work?_eq_some_iff.mp hwork).2 <;> rfl
      exact (ih p').trans hkept

end Publisher

namespace LiveReporter

variable {ι σ : Type} {s t u : LiveReporter ι σ} {i : ι} {now : Instant}

/-- Thread `i` alone has ever had the lock, it is in no call, and the program has not ended. -/
structure IsIdle (i : ι) (s : LiveReporter ι σ) : Prop where
  holder : ∀ j ∈ s.holder, j = i
  isOver : (s.shared.calls i).isOver = true
  live : s.shared.publisher.terminated = false

theorem IsIdle.isFree (h : s.IsIdle i) : s.isFree = true := by
  rw [LiveReporter.isFree, Option.all_eq_true]
  intro j hj
  rw [h.holder j hj, Call.underWay, h.isOver]
  rfl

variable [DecidableEq ι] [ResourceStore σ] {e : Event ι σ} {A : (σ → σ) → Prop}

/-! ### Reaching states -/

/-- A run leads from one state to another, in which others do no more to the store than `A`
allows. -/
def Reaches (A : (σ → σ) → Prop) (s t : LiveReporter ι σ) : Prop :=
  ∃ es, s.run? es = some t ∧ ∀ f, .pass (.arrange f) rfl ∈ es → A f

protected theorem Reaches.refl (s : LiveReporter ι σ) : s.Reaches A s := ⟨[], rfl, by simp⟩

protected theorem Reaches.trans (h : s.Reaches A t) (h' : t.Reaches A u) : s.Reaches A u := by
  obtain ⟨es, hrun, hes⟩ := h
  obtain ⟨es', hlater, hes'⟩ := h'
  exact ⟨es ++ es', run?_append hrun hlater, fun f hf =>
    (List.mem_append.mp hf).elim (hes f) (hes' f)⟩

theorem Reaches.mono {B : (σ → σ) → Prop} (h : s.Reaches A t) (hAB : ∀ f, A f → B f) :
    s.Reaches B t := by
  obtain ⟨es, hrun, hes⟩ := h
  exact ⟨es, hrun, fun f hf => hAB f (hes f hf)⟩

theorem Step.reaches (h : s.Step e t) (hlive : s.shared.publisher.terminated = false)
    (he : ∀ f, e = .pass (.arrange f) rfl → A f) : s.Reaches A t := by
  refine ⟨[e], ?_, fun f hf => he f (List.mem_singleton.mp hf).symm⟩
  simp [run?, step?_eq_some_iff.mpr ⟨hlive, h⟩]

/-! ### Actions in a row -/

/-- A call goes as far as it gets, and all else stays as it is. -/
theorem exists_reaches_performFor (s : LiveReporter ι σ) (i : ι) (n : Nat) :
    ∃ t, s.Reaches A t ∧ t.holder = s.holder ∧
      t.shared.calls i = (s.shared.publisher.performFor n (s.shared.calls i)).1 ∧
      t.reporter = { s.reporter with
        publisher := (s.shared.publisher.performFor n (s.shared.calls i)).2 } := by
  induction n generalizing s with
  | zero => exact ⟨s, .refl s, rfl, rfl, rfl⟩
  | succ n ih =>
    rw [Publisher.performFor]
    cases hact : s.shared.publisher.act? (s.shared.calls i) with
    | none => exact ⟨s, .refl s, rfl, rfl, rfl⟩
    | some next =>
      obtain ⟨c, p⟩ := next
      obtain ⟨hlive, hrule⟩ := Publisher.act?_eq_some_iff.mp hact
      have hstep : s.Step (.pass (.act i) rfl) { s with shared := s.shared.act i c p } :=
        .pass rfl (.act i hrule)
      obtain ⟨t, hreach, hholder, hcalls, hreporter⟩ := ih { s with shared := s.shared.act i c p }
      simp only [SharedPublisher.act, Function.update_self] at hcalls hreporter
      exact ⟨t, (hstep.reaches hlive (by rintro f ⟨⟩)).trans hreach, hholder, hcalls, hreporter⟩

/-- The worker takes its actions, and all else stays as it is. -/
theorem exists_reaches_workFor (s : LiveReporter ι σ) (now : Instant) (n : Nat) :
    ∃ t, s.Reaches A t ∧ t.holder = s.holder ∧ t.shared.calls = s.shared.calls ∧
      t.reporter = { s.reporter with publisher := s.shared.publisher.workFor n now } := by
  induction n generalizing s with
  | zero => exact ⟨s, .refl s, rfl, rfl, rfl⟩
  | succ n ih =>
    rw [Publisher.workFor]
    cases hwork : s.shared.publisher.work? now with
    | none => exact ⟨s, .refl s, rfl, rfl, rfl⟩
    | some p =>
      obtain ⟨hlive, hrule⟩ := Publisher.work?_eq_some_iff.mp hwork
      have hstep : s.Step (.pass (.work now) rfl) { s with shared := { s.shared with
          publisher := p, cycles := s.shared.cycles ++ s.shared.publisher.nextCycle now } } :=
        .pass rfl (.work hrule)
      obtain ⟨t, hreach, hholder, hcalls, hreporter⟩ := ih _
      exact ⟨t, (hstep.reaches hlive (by rintro f ⟨⟩)).trans hreach, hholder, hcalls, hreporter⟩

/-! ### Whole calls -/

namespace IsIdle

/-- A start that does not have to wait. -/
theorem reaches_start (h : s.IsIdle i)
    (hover : (s.shared.publisher.perform .startCheck).1.isOver = true) :
    ∃ t, s.Reaches A t ∧ t.IsIdle i ∧ t.reporter = s.reporter.start := by
  have hstep : s.Step (.pass (.request i .start) rfl)
      { s with shared := s.shared.request i .start } := .pass rfl (.request i .start h.isOver)
  obtain ⟨t, hreach, hholder, hcalls, hreporter⟩ :=
    exists_reaches_performFor { s with shared := s.shared.request i .start } i 5
  simp only [SharedPublisher.request, Function.update_self] at hholder hcalls hreporter
  refine ⟨t, (hstep.reaches h.live (by rintro f ⟨⟩)).trans hreach,
    ⟨hholder ▸ h.holder, ?_, ?_⟩, hreporter⟩
  · rw [hcalls]
    exact hover
  · have hpublisher : t.shared.publisher = _ := congrArg (·.publisher) hreporter
    rw [hpublisher]
    exact Publisher.live_of_isOver h.live hover

/-- A signal whose report can be handed over without waiting. -/
theorem reaches_report {signal : Signal} {accepted : Bool} {p : Publisher σ} (h : s.IsIdle i)
    (hreturn : s.shared.publisher.perform (.countIn (s.reporter.answer signal).2) =
      (.returned (s.reporter.answer signal).2 accepted, p)) (now : Instant) :
    ∃ t, s.Reaches A t ∧ t.IsIdle i ∧ t.reporter = s.reporter.report now signal := by
  have hstep := Step.tell i signal h.isFree h.isOver
  obtain ⟨t, hreach, hholder, hcalls, hreporter⟩ := exists_reaches_performFor (A := A)
    { s with
      shared := s.shared.request i (.handOver (s.reporter.answer signal).2)
      ledger := signal.enter s.ledger
      holder := some i } i 5
  have hwhole : s.shared.publisher.performFor 5 (.countIn (s.reporter.answer signal).2) =
      (.returned (s.reporter.answer signal).2 accepted, p) := hreturn
  simp only [SharedPublisher.request, Request.call, Function.update_self, hwhole]
    at hholder hcalls hreporter
  refine ⟨t, (hstep.reaches h.live (by rintro f ⟨⟩)).trans hreach,
    ⟨by simp [hholder], ?_, ?_⟩, ?_⟩
  · rw [hcalls]
    rfl
  · have hpublisher : t.shared.publisher = p := congrArg (·.publisher) hreporter
    have hend := Publisher.live_of_isOver (n := 5) (c := .countIn (s.reporter.answer signal).2)
      h.live (by rw [hwhole]; rfl)
    rw [hwhole] at hend
    rw [hpublisher]
    exact hend
  · have hreturn' : s.reporter.publisher.perform (.countIn (s.reporter.answer signal).2) =
        (.returned (s.reporter.answer signal).2 accepted, p) := hreturn
    simp only [hreporter, Reporter.report, Publisher.enqueue, hreturn', Reporter.ledger_answer]
    rfl

/-- The worker does all it can. -/
theorem reaches_settle (h : s.IsIdle i) (now : Instant) :
    ∃ t, s.Reaches A t ∧ t.IsIdle i ∧ t.reporter = s.reporter.settle now := by
  obtain ⟨t, hreach, hholder, hcalls, hreporter⟩ :=
    exists_reaches_workFor s now s.shared.publisher.workLeft
  have hpublisher : t.shared.publisher = _ := congrArg (·.publisher) hreporter
  refine ⟨t, hreach, ⟨hholder ▸ h.holder, hcalls ▸ h.isOver, ?_⟩, hreporter⟩
  rw [hpublisher]
  exact (Publisher.terminated_workFor ..).trans h.live

/-! ### What happens around it -/

/-- Others do something to the store. -/
theorem reaches_rearrange {f : σ → σ} (h : s.IsIdle i) (hf : A f) :
    ∃ t, s.Reaches A t ∧ t.IsIdle i ∧ t.reporter = { s.reporter with
      publisher := { s.reporter.publisher with store := f s.reporter.publisher.store } } := by
  have hstep := Step.pass (s := s) rfl (.arrange f)
  refine ⟨_, hstep.reaches h.live fun g hg => ?_, ⟨h.holder, h.isOver, h.live⟩, rfl⟩
  cases hg
  exact hf

/-- The states of the workloads change. -/
theorem reaches_change (h : s.IsIdle i) (inspector : Inspector) :
    ∃ t, s.Reaches A t ∧ t.IsIdle i ∧ t.reporter = { s.reporter with inspector } :=
  ⟨_, (Step.change inspector).reaches h.live (by rintro f ⟨⟩), ⟨h.holder, h.isOver, h.live⟩, rfl⟩

end IsIdle

end LiveReporter

end OperatorHealth
