import OperatorHealth.Proofs.LiveReporter.Alone
import OperatorHealth.Proofs.LiveReporter.Told
import OperatorHealth.Proofs.Reporter.Rest

/-!
# A reporter at work

While the publisher serves and has room, a thread can tell a signal and get its answer before
anything else happens. So every run in which signals are single events is a run of the reporter with
all its actions, with the same reporter and the same cycles at the end, and what is told in it is
the same.

## Main definitions

* `LiveReporter.Shows`: a reporter with all its actions shows a reporter without them.

## Main results

* `LiveReporter.exists_run?_wholeStart`, `LiveReporter.exists_run?_wholeTell`,
  `LiveReporter.exists_run?_workOn`: a start, a signal, and the work on a report.
* `LiveReporter.exists_run?_of_started`: runs with single signals are runs with all actions.
-/

namespace OperatorHealth

variable {ι σ : Type} [DecidableEq ι] [ResourceStore σ] {i : ι}

/-! ### Whole calls and whole work -/

namespace SharedPublisher

/-- A thread hands over a report to a publisher that is serving and has room. -/
theorem exists_run?_acts_of_isServing {s : SharedPublisher ι σ} {r : StatusReport}
    (hserving : s.publisher.IsServing) (hroom : s.publisher.queue.isFull = false)
    (hcall : s.calls i = .countIn r) : ∃ t, s.run? (List.replicate 4 (.act i)) = some t ∧
      t.publisher = { s.publisher with
        pending := s.publisher.pending + 1, queue := s.publisher.queue.append r } ∧
      t.calls i = .returned r true ∧ t.cycles = s.cycles ∧
      t.answers = s.answers ++ [⟨i, r, true⟩] := by
  let p : Publisher σ := { s.publisher with pending := s.publisher.pending + 1 }
  let s₁ := s.act i (.checkClosed r) p
  let s₂ := s₁.act i (.checkRunning r) p
  let s₃ := s₂.act i (.push r) p
  let s₄ := s₃.act i (.returned r true) { p with queue := p.queue.append r }
  have h₁ : s.Step (.act i) s₁ := .act_of_calls hcall (.countIn r)
  have h₂ : s₁.Step (.act i) s₂ :=
    .act_of_calls (s.calls_act i (.checkClosed r) p) (.stillOpen r hserving.isOpen)
  have h₃ : s₂.Step (.act i) s₃ :=
    .act_of_calls (s₁.calls_act i (.checkRunning r) p) (.running r hserving.running)
  have h₄ : s₃.Step (.act i) s₄ :=
    .act_of_calls (s₂.calls_act i (.push r) p) (.enter r (.inr rfl) hserving.isOpen hroom)
  refine ⟨s₄, h₁.run?_cons hserving.live <| h₂.run?_cons hserving.live <|
    h₃.run?_cons hserving.live <| run?_singleton h₄ hserving.live, rfl, calls_act .., rfl, ?_⟩
  simp [s₄, s₃, s₂, s₁, act, Call.answers]

end SharedPublisher

namespace LiveReporter

variable {s t u : LiveReporter ι σ} {es : List (Event ι σ)}

/-- A thread that has the reporter to itself tells it a signal. -/
theorem exists_run?_wholeTell (h : s.IsIdle i) (hserving : s.shared.publisher.IsServing)
    (hroom : s.shared.publisher.queue.isFull = false) (signal : Signal) :
    ∃ t, s.run? (Event.wholeTell i signal) = some t ∧ t.IsIdle i ∧
      t.reporter = { s.reporter with
        ledger := signal.enter s.ledger
        publisher := { s.shared.publisher with
          pending := s.shared.publisher.pending + 1
          queue := s.shared.publisher.queue.append (s.reporter.answer signal).2 } } ∧
      t.shared.cycles = s.shared.cycles ∧
      t.shared.answers = s.shared.answers ++ [⟨i, (s.reporter.answer signal).2, true⟩] := by
  have htell := Step.tell i signal h.isFree h.isOver
  obtain ⟨shared, hacts, hpublisher, hcall, hcycles, hanswers⟩ :=
    SharedPublisher.exists_run?_acts_of_isServing
      (s := s.shared.request i (.handOver (s.reporter.answer signal).2)) hserving hroom
      (s.shared.calls_request i _)
  refine ⟨_, htell.run?_cons h.live (run?_replicate_act hacts), ⟨?_, ?_, ?_⟩, ?_, hcycles, hanswers⟩
  · exact fun j hj => (Option.some.inj hj).symm
  · rw [hcall]
    rfl
  · rw [hpublisher]
    exact h.live
  · simp only [reporter, hpublisher]
    rfl

/-- The worker runs the cycle of the only report that is left. -/
theorem exists_run?_workOn {r : StatusReport} (h : s.IsIdle i)
    (hserving : s.shared.publisher.IsServing) (hworker : s.shared.publisher.worker = .taking)
    (hitems : s.shared.publisher.queue.items = [r]) (hpending : s.shared.publisher.pending = 1)
    (now : Instant) : ∃ t, s.run? (Event.workOn now) = some t ∧ t.IsIdle i ∧
      t.shared.publisher.IsAtRest ∧ t.shared.answers = s.shared.answers ∧
      t.shared.cycles = s.shared.cycles ++ [s.shared.publisher.cycle now r] := by
  have hlive := h.live
  refine ⟨_, (Step.pass rfl (.work (.take r [] hworker hitems))).run?_cons hlive <|
    (Step.pass rfl (.work (.run r rfl))).run?_cons hlive <|
    (Step.pass rfl (.work (.complete rfl))).run?_cons hlive rfl, ⟨h.holder, h.isOver, hlive⟩,
    ⟨⟨hserving.running, hserving.place, hserving.isOpen, hlive⟩, rfl, rfl, ?_⟩, rfl, ?_⟩
  · simp [hpending]
  · simp [Publisher.nextCycle, Publisher.cycle, hworker]

/-- A thread that has the reporter to itself starts it. -/
theorem exists_run?_wholeStart (h : s.IsIdle i) (hs : s.shared.publisher.IsUnstarted) :
    ∃ t, s.run? (Event.wholeStart i) = some t ∧ t.IsIdle i ∧
      t.reporter = { s.reporter with
        publisher := { s.shared.publisher with
          running := true, worker := .taking, joinable := true } } ∧
      t.shared.cycles = s.shared.cycles := by
  have hrequest : s.Step (.pass (.request i .start) rfl)
    { s with shared := s.shared.request i .start } := .pass rfl (.request i .start h.isOver)
  obtain ⟨shared, hacts, hpublisher, hcall, hcycles, -⟩ := SharedPublisher.exists_run?_start
    (s := s.shared.request i .start) hs (s.shared.calls_request i .start)
  refine ⟨_, hrequest.run?_cons h.live (run?_replicate_act hacts), ⟨h.holder, ?_, ?_⟩, ?_, hcycles⟩
  · rw [hcall]
    rfl
  · rw [hpublisher]
    exact h.live
  · simp only [reporter, hpublisher]
    rfl

/-! ### Single signals -/

/-- A reporter with all its actions shows a reporter whose publisher is serving and to which signals
are single events. Thread `i` has it to itself. -/
structure Shows (i : ι) (s : SharedReporter σ) (l : LiveReporter ι σ) : Prop extends
    l.IsIdle i where
  isServing : l.shared.publisher.IsServing
  reporter_eq : l.reporter = s.reporter
  cycles_eq : l.shared.cycles = s.cycles

/-- An event that tells nothing is an event of the reporter with all its actions. -/
theorem IsIdle.exists_run?_of_quiet {r r' : SharedReporter σ} {e : Event ι σ} (h : s.IsIdle i)
    (hstep : s.Step e t) (hquiet : e.signals = []) (ht : t.Shows i r')
    (hsignals : r'.signals = r.signals) : ∃ es t, s.run? es = some t ∧ t.Shows i r' ∧
      r'.signals = r.signals ++ told es :=
  ⟨[e], t, hstep.run?_cons h.live rfl, ht, by simp [told, hquiet, hsignals]⟩

/-- What can happen to the reporter without its actions can happen to the one with them. -/
theorem Shows.exists_run?_of_step {r r' : SharedReporter σ} {e : SharedReporter.Event}
    (h : s.Shows i r) (hstep : r.Step e r') : ∃ es t, s.run? es = some t ∧ t.Shows i r' ∧
      r'.signals = r.signals ++ told es := by
  obtain ⟨hidle, hserving, hreporter, hcycles⟩ := h
  obtain ⟨reporter, heard, cycles⟩ := r
  obtain rfl : s.reporter = reporter := hreporter
  obtain rfl : s.shared.cycles = cycles := hcycles
  have hserving' := (hstep.isServing hserving).1
  have hidle' {t : LiveReporter ι σ} (hholder : t.holder = s.holder)
      (hcalls : t.shared.calls = s.shared.calls)
      (hlive : t.shared.publisher.terminated = false) : t.IsIdle i :=
    ⟨hholder ▸ hidle.holder, hcalls ▸ hidle.isOver, hlive⟩
  cases hstep with
  | signal signal hroom =>
    obtain ⟨t, hrun, ht, hreporter, hcycles, -⟩ := exists_run?_wholeTell hidle hserving hroom signal
    have hpublisher : t.shared.publisher = _ := congrArg (·.publisher) hreporter
    refine ⟨_, t, hrun, ⟨ht, hpublisher ▸ hserving', hreporter, hcycles⟩, ?_⟩
    rw [Event.wholeTell, told_cons, Event.acts, told_replicate_act]
    simp [SharedReporter.signals, Event.signals]
  | watchDaemonSets ids =>
    exact hidle.exists_run?_of_quiet (.watchDaemonSets ids hidle.isFree) rfl
      ⟨hidle' rfl rfl hserving'.live, hserving', rfl, rfl⟩ rfl
  | watchDeployments ids =>
    exact hidle.exists_run?_of_quiet (.watchDeployments ids hidle.isFree) rfl
      ⟨hidle' rfl rfl hserving'.live, hserving', rfl, rfl⟩ rfl
  | relate related =>
    exact hidle.exists_run?_of_quiet (.pass rfl (.relate related)) rfl
      ⟨hidle' rfl rfl hserving'.live, hserving', rfl, rfl⟩ rfl
  | change inspector =>
    exact hidle.exists_run?_of_quiet (.change inspector) rfl
      ⟨hidle' rfl rfl hserving'.live, hserving', rfl, rfl⟩ rfl
  | work hwork =>
    exact hidle.exists_run?_of_quiet (.pass rfl (.work hwork)) rfl
      ⟨hidle' rfl rfl hserving'.live, hserving', rfl, rfl⟩ rfl

theorem Shows.exists_run?_of_run {r u : SharedReporter σ} {es : List SharedReporter.Event}
    (h : s.Shows i r) (hrun : r.run? es = some u) : ∃ es' t, s.run? es' = some t ∧ t.Shows i u ∧
      u.signals = r.signals ++ told es' := by
  have hserving : r.reporter.publisher.IsServing := h.reporter_eq ▸ h.isServing
  refine SharedReporter.run?_induction (P := fun u => ∃ es' t, s.run? es' = some t ∧ t.Shows i u ∧
    u.signals = r.signals ++ told es') hrun hserving
    ⟨[], s, rfl, h, (List.append_nil _).symm⟩ fun e u u' hstep hu => ?_
  obtain ⟨es', t, hrun', ht, hsignals⟩ := hu
  obtain ⟨later, t', hlater, ht', hsignals'⟩ := ht.exists_run?_of_step hstep
  refine ⟨es' ++ later, t', run?_append hrun' hlater, ht', ?_⟩
  rw [hsignals', hsignals, told_append, List.append_assoc]

/-- **Runs with single signals are runs with all actions.** What comes of a reporter that is started
at once, if each signal is a single event, also comes of a reporter that has the same beginning and
is started by a thread, which tells it the same signals by all the actions that this takes. -/
theorem exists_run?_of_started {name release : String} {capacity : Nat} {store : σ}
    {inspector : Inspector} {r u : SharedReporter σ} {es : List SharedReporter.Event}
    (hstarted : SharedReporter.started? name release capacity store inspector = .ok r)
    (hrun : r.run? es = some u) (i : ι) : ∃ (s₀ : LiveReporter ι σ) (es' : _) (t : _),
      new? name release capacity store inspector = .ok s₀ ∧
      s₀.run? (Event.wholeStart i ++ es') = some t ∧ t.reporter = u.reporter ∧
      t.shared.cycles = u.cycles ∧ told es' = u.signals := by
  cases hr : Reporter.new? name release (some store) (some inspector) capacity with
  | error e =>
    rw [SharedReporter.started?, hr] at hstarted
    cases hstarted
  | ok r₀ =>
    have hnew : new? (ι := ι) name release capacity store inspector = .ok (ofReporter r₀) := by
      rw [new?, hr]
      rfl
    obtain ⟨queue, -, hopen, -, hshared⟩ := SharedPublisher.eq_of_new? (of_new? hnew).1
    have hpublisher : r₀.publisher = { name, release, queue, store } :=
      congrArg (·.publisher) hshared
    have hunstarted : r₀.publisher.IsUnstarted := by
      rw [hpublisher]
      exact ⟨rfl, rfl, rfl, hopen, rfl⟩
    obtain ⟨s, hstart, hs, hreporter, hcycles⟩ :=
      exists_run?_wholeStart (s := ofReporter r₀) (i := i)
        ⟨(fun j hj => by cases hj), rfl, hunstarted.live⟩ hunstarted
    rw [SharedReporter.started?, hr] at hstarted
    obtain rfl : ({ reporter := r₀.start } : SharedReporter σ) = r := Except.ok.inj hstarted
    have hshows : s.Shows i { reporter := r₀.start } := by
      refine ⟨hs, ?_, ?_, hcycles⟩
      · rw [show s.shared.publisher = _ from congrArg (·.publisher) hreporter]
        exact ⟨rfl, rfl, hunstarted.isOpen, hunstarted.live⟩
      · rw [hreporter, Reporter.start, Publisher.start, Publisher.perform_startCheck hunstarted]
        rfl
    obtain ⟨es', t, hrun', ht, hsignals⟩ := hshows.exists_run?_of_run hrun
    exact ⟨_, es', t, hnew, run?_append hstart hrun', ht.reporter_eq, ht.cycles_eq, hsignals.symm⟩

end LiveReporter

end OperatorHealth
