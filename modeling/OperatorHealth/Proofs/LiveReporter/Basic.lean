import OperatorHealth.Proofs.Reporter.Workloads
import OperatorHealth.Proofs.SharedPublisher.HandedOver

/-!
# A reporter from its first moment on

Threads use a reporter whose publisher may not be started yet, may be at work, or may be stopped. A
thread that has something to tell gets the lock, enters it in the ledger, and hands over the report.
It keeps the lock until it has its answer, so the hand-over, which is cut into actions, may have to
wait for room with the lock taken. All else that happens to the publisher needs no lock, and starts
and stops that get into each other may end the program. Reports that the publisher does not take in
are lost, but what was told stays in the ledger.

Such a run is also a run of the publisher, shared by the threads, and all reports that they hand
over are orderly.

## Main definitions

* `LiveReporter`: a reporter with a shared publisher, and the thread that had the lock last.
* `LiveReporter.ofReporter`: a reporter that no thread has used yet.
* `LiveReporter.Event`, `LiveReporter.step?`, `LiveReporter.run?`: events and runs.
* `LiveReporter.Step`: what events do.
* `LiveReporter.Event.Does`: what they do to the publisher.

## Main results

* `LiveReporter.reporter_eq_report`: a thread that nothing gets in the way of.
* `LiveReporter.holder_eq_of_underWay`: one hand-over at a time.
* `LiveReporter.exists_run?_shared_does`: the run of the publisher.
* `LiveReporter.exists_run?_shared_of`, `LiveReporter.exists_run?_shared`: the reports in it.
-/

namespace OperatorHealth

/-! ### The reports of a reporter -/

/-- The report that only says whether the operator is degraded is orderly. -/
theorem DegradedLedger.isOrderly_toReport (signals : List Signal) :
    (DegradedLedger.after signals).toReport.IsOrderly := by
  have hkind := kind_shown_after signals
  have htime := lastTransition_shown_after signals
  refine ⟨⟨?_, ?_⟩, ?_, ?_⟩ <;> simp [toReport, hkind, htime]

/-- The conditions on how far workloads are have no times, and say of availability only that it is
there. -/
theorem Rollout.orderly_conditions (r : Rollout) : ∀ c ∈ r.conditions,
    c.lastTransition = .unset ∧ (c.kind = .available → c.SaysAvailable) := by
  unfold conditions
  split <;> simp [Condition.SaysAvailable, Instant.unset]

namespace Reporter

variable {σ : Type} {r : Reporter σ} {signals : List Signal}

theorem isOrderly_answer_workloads (h : r.ledger = .after signals) :
    (r.answer .workloads).2.IsOrderly where
  toIsPlain := isPlain_answer_workloads h
  untimed := by
    rw [conditions_answer_workloads, ledger_answer, h, ← DegradedLedger.after_append_singleton,
      List.forall_mem_cons]
    exact ⟨DegradedLedger.lastTransition_shown_after _,
      fun c hc => (r.rollout.orderly_conditions c hc).1⟩
  available := by
    rw [conditions_answer_workloads, List.forall_mem_cons]
    refine ⟨fun hkind => ?_, fun c hc => (r.rollout.orderly_conditions c hc).2⟩
    cases (kind_shown_answer h .workloads).symm.trans hkind

/-- **All reports of a reporter are orderly.** -/
theorem isOrderly_answer (h : r.ledger = .after signals) (signal : Signal) :
    (r.answer signal).2.IsOrderly := by
  have hledger := ledger_answer r signal
  rw [h, ← DegradedLedger.after_append_singleton] at hledger
  have htold := DegradedLedger.isOrderly_toReport (signals ++ [signal])
  rw [← hledger] at htold
  cases signal with
  | degraded tier reason message => exact htold
  | recovered tier => exact htold
  | workloads => exact isOrderly_answer_workloads h

end Reporter

/-! ### Events -/

/-- A reporter whose publisher is shared by threads, and the thread that had the lock last. -/
structure LiveReporter (ι σ : Type) where
  shared : SharedPublisher ι σ
  inspector : Inspector
  ledger : DegradedLedger := .empty
  daemonSets : List WorkloadName := []
  deployments : List WorkloadName := []
  holder : Option ι := none

/-- The reports that an event at a publisher hands over. -/
def SharedPublisher.Event.reports {ι σ : Type} : SharedPublisher.Event ι σ → List StatusReport
  | .request _ q => q.reports
  | _ => []

namespace LiveReporter

variable {ι σ : Type}

/-- What can happen. -/
inductive Event (ι σ : Type)
  /-- A thread gets the lock and tells the reporter a signal. -/
  | tell (thread : ι) (signal : Signal)
  /-- The daemon sets to watch are set. -/
  | watchDaemonSets (ids : List WorkloadName)
  /-- The deployments to watch are set. -/
  | watchDeployments (ids : List WorkloadName)
  /-- The states of the workloads have changed. -/
  | change (inspector : Inspector)
  /-- Something else happens to the publisher than a new hand-over. -/
  | pass (event : SharedPublisher.Event ι σ) (hevent : event.reports = [])

/-- The reporter as it is now. -/
def reporter (s : LiveReporter ι σ) : Reporter σ where
  publisher := s.shared.publisher
  inspector := s.inspector
  ledger := s.ledger
  daemonSets := s.daemonSets
  deployments := s.deployments

/-- A reporter that no thread has used yet. -/
def ofReporter (r : Reporter σ) : LiveReporter ι σ where
  shared := { publisher := r.publisher }
  inspector := r.inspector
  ledger := r.ledger
  daemonSets := r.daemonSets
  deployments := r.deployments

/-- A reporter that has just been set up. -/
def new? (name release : String) (capacity : Nat) (store : σ) (inspector : Inspector) :
    Except SetupError (LiveReporter ι σ) :=
  (Reporter.new? name release (some store) (some inspector) capacity).map fun r =>
    { shared := { publisher := r.publisher }, inspector := r.inspector, ledger := r.ledger
      daemonSets := r.daemonSets, deployments := r.deployments }

/-- Whether a thread can get the lock: the one that had it last has its answer. -/
def isFree (s : LiveReporter ι σ) : Bool :=
  s.holder.all fun i => (s.shared.calls i).underWay.isEmpty

variable [DecidableEq ι] [ResourceStore σ]

/-- The state after an event in a program that goes on. -/
def stepAlive? (s : LiveReporter ι σ) : Event ι σ → Option (LiveReporter ι σ)
  | .tell i signal =>
    if s.isFree then
      let answer := s.reporter.answer signal
      (s.shared.step? (.request i (.handOver answer.2))).map fun shared =>
        { s with shared, ledger := answer.1, holder := some i }
    else none
  | .watchDaemonSets ids => if s.isFree then some { s with daemonSets := ids } else none
  | .watchDeployments ids => if s.isFree then some { s with deployments := ids } else none
  | .change inspector => some { s with inspector }
  | .pass event _ => (s.shared.step? event).map fun shared => { s with shared }

/-- The state after an event. Nothing happens in a program that has ended. -/
def step? (s : LiveReporter ι σ) (e : Event ι σ) : Option (LiveReporter ι σ) :=
  if s.shared.publisher.terminated then none else s.stepAlive? e

/-- The state after a list of events. -/
def run? (s : LiveReporter ι σ) (es : List (Event ι σ)) : Option (LiveReporter ι σ) :=
  es.foldlM step? s

/-! ### Rules -/

variable {s s' u : LiveReporter ι σ} {e : Event ι σ} {es es' : List (Event ι σ)}

/-- What events do. -/
inductive Step (s : LiveReporter ι σ) : Event ι σ → LiveReporter ι σ → Prop
  | tell (i : ι) (signal : Signal) (hfree : s.isFree = true)
      (hover : (s.shared.calls i).isOver = true) :
      Step s (.tell i signal) { s with
        shared := s.shared.request i (.handOver (s.reporter.answer signal).2)
        ledger := signal.enter s.ledger
        holder := some i }
  | watchDaemonSets (ids : List WorkloadName) (hfree : s.isFree = true) :
      Step s (.watchDaemonSets ids) { s with daemonSets := ids }
  | watchDeployments (ids : List WorkloadName) (hfree : s.isFree = true) :
      Step s (.watchDeployments ids) { s with deployments := ids }
  | change (inspector : Inspector) : Step s (.change inspector) { s with inspector }
  | pass {event : SharedPublisher.Event ι σ} {shared : SharedPublisher ι σ}
      (hevent : event.reports = []) (hstep : s.shared.Step event shared) :
      Step s (.pass event hevent) { s with shared }

private theorem stepAlive?_eq_some_iff (hlive : s.shared.publisher.terminated = false) :
    s.stepAlive? e = some s' ↔ s.Step e s' := by
  constructor
  · intro h
    cases e with
    | tell i signal =>
      simp only [stepAlive?] at h
      split at h
      · next hfree =>
        obtain ⟨shared, hstep, rfl⟩ := Option.map_eq_some_iff.mp h
        cases (SharedPublisher.step?_eq_some_iff.mp hstep).2 with
        | request i q hover =>
          rw [Reporter.ledger_answer]
          exact .tell i signal hfree hover
      · cases h
    | watchDaemonSets ids =>
      simp only [stepAlive?] at h
      split at h <;> cases h
      exact .watchDaemonSets ids ‹_›
    | watchDeployments ids =>
      simp only [stepAlive?] at h
      split at h <;> cases h
      exact .watchDeployments ids ‹_›
    | change inspector => cases h; exact .change inspector
    | pass event hevent =>
      obtain ⟨shared, hstep, rfl⟩ := Option.map_eq_some_iff.mp h
      exact .pass hevent (SharedPublisher.step?_eq_some_iff.mp hstep).2
  · intro h
    cases h with
    | tell i signal hfree hover =>
      have hstep := SharedPublisher.step?_eq_some_iff.mpr
        ⟨hlive, .request i (.handOver (s.reporter.answer signal).2) hover⟩
      simp only [stepAlive?, hfree, if_true, hstep, Option.map_some, Reporter.ledger_answer]
      rfl
    | watchDaemonSets ids hfree => simp [stepAlive?, hfree]
    | watchDeployments ids hfree => simp [stepAlive?, hfree]
    | change => rfl
    | pass hevent hstep =>
      simp [stepAlive?, SharedPublisher.step?_eq_some_iff.mpr ⟨hlive, hstep⟩]

/-- The rules are the steps in a program that has not ended. -/
theorem step?_eq_some_iff :
    s.step? e = some s' ↔ s.shared.publisher.terminated = false ∧ s.Step e s' := by
  cases hended : s.shared.publisher.terminated with
  | true => simp [step?, hended]
  | false =>
    rw [step?, hended, if_neg Bool.false_ne_true, stepAlive?_eq_some_iff hended]
    exact (and_iff_right rfl).symm

/-- A run can begin with any step of a program that has not ended. -/
theorem Step.run?_cons (h : s.Step e s') (hlive : s.shared.publisher.terminated = false)
    (hrun : s'.run? es = some u) : s.run? (e :: es) = some u :=
  foldlM_cons_eq_some_iff.mpr ⟨s', step?_eq_some_iff.mpr ⟨hlive, h⟩, hrun⟩

theorem run?_append (hrun : s.run? es = some s') (hlater : s'.run? es' = some u) :
    s.run? (es ++ es') = some u :=
  foldlM_append_eq_some_iff.mpr ⟨s', hrun, hlater⟩

/-- What holds at the beginning of a run, and is kept by each of its events, holds at the end. -/
theorem run?_induction {P : LiveReporter ι σ → Prop} (hrun : s.run? es = some s') (hinit : P s)
    (hstep : ∀ e ∈ es, ∀ t t', t.Step e t' → P t → P t') : P s' :=
  foldlM_induction hrun hinit fun e he t t' het =>
    hstep e he t t' (step?_eq_some_iff.mp het).2

/-! ### One thread alone -/

/-- Actions that one call takes in a row, until it is over, are the whole call. -/
theorem performFor_of_acts {t t' : SharedPublisher ι σ} {i : ι} {n m : Nat} (hnm : n ≤ m)
    (hrun : t.run? (List.replicate n (.act i)) = some t') (hover : (t'.calls i).isOver = true) :
    t.publisher.performFor m (t.calls i) = (t'.calls i, t'.publisher) ∧
      (t'.calls i).report? = (t.calls i).report? := by
  induction n generalizing t m with
  | zero =>
    obtain rfl : t = t' := Option.some.inj hrun
    refine ⟨?_, rfl⟩
    cases m with
    | zero => rfl
    | succ m =>
      have hnone : t.publisher.act? (t.calls i) = none := by
        rw [Option.eq_none_iff_forall_ne_some]
        intro next hnext
        have hact := (Publisher.act?_eq_some_iff.mp hnext).2
        rw [hact.isOver_eq] at hover
        cases hover
      rw [Publisher.performFor, hnone]
  | succ n ih =>
    obtain ⟨m, rfl⟩ : ∃ k, m = k + 1 := ⟨m - 1, by omega⟩
    obtain ⟨v, hstep, hrest⟩ := foldlM_cons_eq_some_iff.mp hrun
    obtain ⟨hlive, hrule⟩ := SharedPublisher.step?_eq_some_iff.mp hstep
    cases hrule with
    | @act i c p hact =>
      obtain ⟨hperform, hreport⟩ := ih (Nat.le_of_succ_le_succ hnm) hrest
      simp only [SharedPublisher.act, Function.update_self] at hperform hreport
      refine ⟨?_, hreport.trans hact.report?_eq⟩
      rw [Publisher.performFor, Publisher.act?_eq_some_iff.mpr ⟨hlive, hact⟩]
      exact hperform

/-- Actions of calls are no concern of the reporter. -/
theorem run?_acts {i : ι} {n : Nat}
    (hrun : s.run? (List.replicate n (.pass (.act i) rfl)) = some s') :
    s.shared.run? (List.replicate n (.act i)) = some s'.shared ∧
      s' = { s with shared := s'.shared } := by
  induction n generalizing s with
  | zero =>
    cases hrun
    exact ⟨rfl, rfl⟩
  | succ n ih =>
    obtain ⟨t, hstep, hrest⟩ := foldlM_cons_eq_some_iff.mp hrun
    obtain ⟨hlive, hrule⟩ := step?_eq_some_iff.mp hstep
    cases hrule with
    | @pass event shared hevent hact =>
      obtain ⟨hacts, hs'⟩ := ih hrest
      exact ⟨SharedPublisher.run?_append (SharedPublisher.run?_singleton hact hlive) hacts, hs'⟩

/-- A thread that nothing gets in the way of, from the lock to its answer, does to the reporter what
it does when there is no other thread. -/
theorem reporter_eq_report {i : ι} {signal : Signal} {n : Nat} (hn : n ≤ 5)
    (hrun : s.run? (.tell i signal :: List.replicate n (.pass (.act i) rfl)) = some s')
    (hover : (s'.shared.calls i).isOver = true) (now : Instant) :
    s'.reporter = s.reporter.report now signal := by
  obtain ⟨t, hstep, hrest⟩ := foldlM_cons_eq_some_iff.mp hrun
  obtain ⟨hacts, hs'⟩ := run?_acts hrest
  cases (step?_eq_some_iff.mp hstep).2 with
  | tell i signal hfree hidle =>
    obtain ⟨hperform, hreport⟩ := performFor_of_acts hn hacts hover
    simp only [SharedPublisher.request, Function.update_self] at hperform hreport
    obtain ⟨accepted, hcall⟩ := Call.eq_returned_of_isOver hover hreport
    rw [hcall] at hperform
    have hperform' : s.reporter.publisher.perform (.countIn (s.reporter.answer signal).2) =
        (.returned (s.reporter.answer signal).2 accepted, s'.shared.publisher) := hperform
    rw [hs']
    simp only [Reporter.report, Publisher.enqueue, hperform', Reporter.ledger_answer]
    rfl

/-! ### One hand-over at a time -/

/-- A hand-over is under way only for the thread that has the lock. -/
def OneAtATime (s : LiveReporter ι σ) : Prop :=
  ∀ i, (s.shared.calls i).underWay ≠ [] → s.holder = some i

theorem Step.oneAtATime (h : s.Step e s') (hs : s.OneAtATime) : s'.OneAtATime := by
  intro j hj
  cases h with
  | watchDaemonSets ids hfree => exact hs j hj
  | watchDeployments ids hfree => exact hs j hj
  | change inspector => exact hs j hj
  | tell i signal hfree hover =>
    by_cases hij : j = i
    · rw [hij]
    · -- no other thread has a hand-over under way when the lock is free
      have hother : (s.shared.calls j).underWay ≠ [] := by
        simpa [SharedPublisher.request, Function.update_of_ne hij] using hj
      rw [isFree, hs j hother] at hfree
      simp [hother] at hfree
  | pass hevent hstep =>
    cases hstep with
    | relate related => exact hs j hj
    | arrange change => exact hs j hj
    | work hwork => exact hs j hj
    | request i q hover =>
      by_cases hij : j = i
      · subst hij
        have hq : q.call.underWay = [] := (Request.underWay_call q).trans hevent
        simp [SharedPublisher.request, hq] at hj
      · exact hs j (by simpa [SharedPublisher.request, Function.update_of_ne hij] using hj)
    | @act i c p hact =>
      by_cases hij : j = i
      · subst hij
        refine hs j ?_
        rw [Call.underWay_of_not_isOver hact.isOver_eq, ← hact.report?_eq]
        intro hnone
        simp [SharedPublisher.act, Call.underWay, hnone] at hj
      · exact hs j (by simpa [SharedPublisher.act, Function.update_of_ne hij] using hj)

/-! ### New reporters -/

variable {name release : String} {capacity : Nat} {store : σ} {inspector : Inspector}
  {s₀ : LiveReporter ι σ}

omit [DecidableEq ι] [ResourceStore σ] in
/-- A new reporter has a new publisher, without related objects, and an empty ledger. -/
theorem of_new? (h : new? name release capacity store inspector = .ok s₀) :
    SharedPublisher.new? name release capacity [] store = .ok s₀.shared ∧
      s₀.ledger = .after [] ∧ s₀.holder = none := by
  by_cases hpos : 0 < capacity
  · simp only [new?, Reporter.new?, Publisher.new?, BoundedQueue.new?, hpos, dite_true,
      Except.map] at h
    cases h
    simp [SharedPublisher.new?, Publisher.new?, BoundedQueue.new?, hpos, Except.map,
      Publisher.setRelated, DegradedLedger.after]
  · simp only [new?, Reporter.new?, Publisher.new?, BoundedQueue.new?, hpos, dite_false,
      Except.map] at h
    cases h

/-- **One hand-over at a time.** A hand-over that is under way is that of the thread that got the
lock last. -/
theorem holder_eq_of_underWay (hnew : new? name release capacity store inspector = .ok s₀)
    (hrun : s₀.run? es = some s) {i : ι} (hi : (s.shared.calls i).underWay ≠ []) :
    s.holder = some i := by
  refine run?_induction hrun ?_ (fun e _ t t' h => h.oneAtATime) i hi
  obtain ⟨hshared, -, -⟩ := of_new? hnew
  obtain ⟨queue, -, -, -, hs⟩ := SharedPublisher.eq_of_new? hshared
  intro j hj
  simp [hs, Call.underWay, Call.isOver] at hj

/-! ### The run of the publisher -/

/-- What an event does to the publisher: what is told is handed over, as a report that a reporter
gives, and all else is passed on. -/
inductive Event.Does : Event ι σ → SharedPublisher.Event ι σ → Prop
  | tell (i : ι) {r : Reporter σ} {signals : List Signal} (hledger : r.ledger = .after signals)
      (signal : Signal) : Does (.tell i signal) (.request i (.handOver (r.answer signal).2))
  | pass (event : SharedPublisher.Event ι σ) (hevent : event.reports = []) :
      Does (.pass event hevent) event

/-- An event does nothing to the publisher, or is one of its events. -/
theorem Step.shared_cases {signals : List Signal} (h : s.Step e s')
    (hledger : s.ledger = .after signals) : (∃ signals, s'.ledger = .after signals) ∧
      (s'.shared = s.shared ∨ ∃ event, s.shared.Step event s'.shared ∧ e.Does event) := by
  cases h with
  | tell i signal hfree hover =>
    refine ⟨⟨signals ++ [signal], ?_⟩, .inr ⟨_, .request i _ hover, .tell i hledger signal⟩⟩
    rw [DegradedLedger.after_append_singleton, ← hledger]
  | pass hevent hstep => exact ⟨⟨signals, hledger⟩, .inr ⟨_, hstep, .pass _ hevent⟩⟩
  | _ => exact ⟨⟨signals, hledger⟩, .inl rfl⟩

/-- **A run of a reporter is a run of its publisher.** -/
theorem exists_run?_shared_does {signals : List Signal} (hrun : s.run? es = some u)
    (hledger : s.ledger = .after signals) :
    ∃ events, s.shared.run? events = some u.shared ∧ (∀ event ∈ events, ∃ e ∈ es, e.Does event) ∧
      ∃ signals, u.ledger = .after signals := by
  refine foldlM_induction (P := fun t => ∃ events, s.shared.run? events = some t.shared ∧
    (∀ event ∈ events, ∃ e ∈ es, e.Does event) ∧ ∃ signals, t.ledger = .after signals) hrun
    ⟨[], rfl, nofun, signals, hledger⟩ fun e he t t' hstep ht => ?_
  obtain ⟨events, hevents, hdoes, signals, hsignals⟩ := ht
  obtain ⟨hlive, hrule⟩ := step?_eq_some_iff.mp hstep
  obtain ⟨hledger', hkept | ⟨event, hshared, hevent⟩⟩ := hrule.shared_cases hsignals
  · exact ⟨events, hkept ▸ hevents, hdoes, hledger'⟩
  · refine ⟨events ++ [event], SharedPublisher.run?_append hevents ?_, fun event' hmem => ?_,
      hledger'⟩
    · exact SharedPublisher.run?_singleton hshared hlive
    · rcases List.mem_append.mp hmem with hmem | hmem
      · exact hdoes event' hmem
      · exact ⟨e, he, List.mem_singleton.mp hmem ▸ hevent⟩

/-- In the run of the publisher threads hand over only reports that a reporter gives, and the store
is rearranged only where it is in the run of the reporter. -/
theorem exists_run?_shared_of {Q : StatusReport → Prop} {signals : List Signal}
    (hrun : s.run? es = some u) (hledger : s.ledger = .after signals)
    (hQ : ∀ (r : Reporter σ) signals signal, r.ledger = .after signals → Q (r.answer signal).2) :
    ∃ events, s.shared.run? events = some u.shared ∧ SharedPublisher.OnlyHandsOver Q events ∧
      (∀ f, .arrange f ∈ events → .pass (.arrange f) rfl ∈ es) ∧
      ∃ signals, u.ledger = .after signals := by
  obtain ⟨events, hevents, hdoes, hledger'⟩ := exists_run?_shared_does hrun hledger
  refine ⟨events, hevents, fun i r hr => ?_, fun f hf => ?_, hledger'⟩
  · obtain ⟨e, -, hevent⟩ := hdoes _ hr
    cases hevent with
    | tell i hledger signal => exact hQ _ _ signal hledger
    | pass event hnone => cases hnone
  · obtain ⟨e, he, hevent⟩ := hdoes _ hf
    cases hevent with
    | pass event hnone => exact he

/-- All reports that threads hand over in the run of the publisher are orderly. -/
theorem exists_run?_shared {signals : List Signal} (hrun : s.run? es = some u)
    (hledger : s.ledger = .after signals) :
    ∃ events, s.shared.run? events = some u.shared ∧ SharedPublisher.OnlyOrderly events ∧
      (∀ f, .arrange f ∈ events → .pass (.arrange f) rfl ∈ es) ∧
      ∃ signals, u.ledger = .after signals :=
  exists_run?_shared_of hrun hledger fun _ _ signal hr => Reporter.isOrderly_answer hr signal

end LiveReporter

end OperatorHealth
