import OperatorHealth.Proofs.LiveReporter.Basic

/-!
# What a reporter has been told

Whatever becomes of the reports, all that a reporter is told goes into its ledger. A thread keeps
the lock until it has its answer, so hand-overs are answered in the order of the signals, and each
of them is of the report that the reporter gave on its signal then.

## Main definitions

* `LiveReporter.told`: what is told in a run.
* `LiveReporter.InOrder`: hand-overs are answered in the order in which they are begun.

## Main results

* `LiveReporter.ledger_eq`: the ledger has all that was told.
* `LiveReporter.getElem?_begun`: the report on each signal.
* `LiveReporter.inOrder`: the order of the answers.
* `LiveReporter.run?_pmap_pass`: what happens to the publisher beside hand-overs.
-/

namespace OperatorHealth

/-- A call that comes to its end has an answer to the report that was under way. -/
theorem Call.map_answers_append_underWay {ι : Type} (i : ι) (c : Call) :
    ((c.answers i).map fun a => (a.thread, a.report)) ++ c.underWay.map (fun r => (i, r)) =
      c.report?.toList.map fun r => (i, r) := by
  cases c <;> rfl

namespace LiveReporter

variable {ι σ : Type}

/-! ### Calls that nothing gets in the way of -/

/-- The call of a thread takes `n` actions. -/
def Event.acts (i : ι) (n : Nat) : List (Event ι σ) := List.replicate n (.pass (.act i) rfl)

/-- The worker takes `n` actions. -/
def Event.works (n : Nat) (now : Instant) : List (Event ι σ) :=
  List.replicate n (.pass (.work now) rfl)

/-- All that a thread does to tell a reporter a signal that the publisher takes in. -/
def Event.wholeTell (i : ι) (signal : Signal) : List (Event ι σ) := .tell i signal :: acts i 4

/-- All that a thread does to start the publisher. -/
def Event.wholeStart (i : ι) : List (Event ι σ) := .pass (.request i .start) rfl :: acts i 4

/-- All that a thread does to stop the publisher, while the worker takes `n` actions. -/
def Event.wholeStop (i : ι) (n : Nat) (now : Instant) : List (Event ι σ) :=
  .pass (.request i .stop) rfl :: (acts i 2 ++ works n now ++ acts i 1)

/-- The worker takes three actions, which is what it needs for one report. -/
def Event.workOn (now : Instant) : List (Event ι σ) := works 3 now

/-! ### What is told -/

/-- What an event tells. -/
def Event.signals : Event ι σ → List Signal
  | .tell _ signal => [signal]
  | _ => []

/-- What is told in a run, in order. -/
def told (es : List (Event ι σ)) : List Signal := es.flatMap Event.signals

theorem told_cons (e : Event ι σ) (es : List (Event ι σ)) : told (e :: es) = e.signals ++ told es :=
  rfl

theorem told_append (es es' : List (Event ι σ)) : told (es ++ es') = told es ++ told es' :=
  List.flatMap_append

theorem told_replicate_act (n : Nat) (i : ι) :
    told (List.replicate n (Event.pass (σ := σ) (.act i) rfl)) = [] := by
  induction n with
  | zero => rfl
  | succ n ih => rw [List.replicate_succ, told_cons, ih]; rfl

/-- The hand-over that an event begins. -/
def Event.handOvers (s : LiveReporter ι σ) : Event ι σ → List (ι × StatusReport)
  | .tell i signal => [(i, (s.reporter.answer signal).2)]
  | _ => []

theorem Event.length_handOvers (s : LiveReporter ι σ) (e : Event ι σ) :
    (e.handOvers s).length = e.signals.length := by
  cases e <;> rfl

variable [DecidableEq ι] [ResourceStore σ] {s₀ s s' t u : LiveReporter ι σ} {e : Event ι σ}
  {es : List (Event ι σ)} {signals : List Signal} {name release : String} {capacity : Nat}
  {store : σ} {inspector : Inspector}

theorem Step.ledger_eq (h : s.Step e s') (hledger : s.ledger = .after signals) :
    s'.ledger = .after (signals ++ e.signals) := by
  cases h with
  | tell i signal hfree hover =>
    rw [Event.signals, DegradedLedger.after_append_singleton, ← hledger]
  | _ => exact hledger.trans (congrArg _ (List.append_nil signals).symm)

/-- **The ledger has all that was told**, whatever became of the reports on it. -/
theorem ledger_eq (hrun : s.run? es = some u) (hledger : s.ledger = .after signals) :
    u.ledger = .after (signals ++ told es) := by
  induction es generalizing s signals with
  | nil => cases hrun; rw [told, List.flatMap_nil, List.append_nil]; exact hledger
  | cons e es ih =>
    obtain ⟨t, hstep, hrest⟩ := foldlM_cons_eq_some_iff.mp hrun
    have ht := ih hrest ((step?_eq_some_iff.mp hstep).2.ledger_eq hledger)
    rwa [told_cons, ← List.append_assoc]

theorem Step.begun_eq (h : s.Step e s') :
    s'.shared.begun = s.shared.begun ++ e.handOvers s := by
  cases h with
  | tell i signal hfree hover => rfl
  | pass hevent hstep =>
    -- what is passed on begins no hand-over
    refine .trans ?_ (List.append_nil s.shared.begun).symm
    cases hstep with
    | request i q hover =>
      have hq : q.reports = [] := hevent
      rw [SharedPublisher.request, hq, List.map_nil, List.append_nil]
    | _ => rfl
  | _ => exact (List.append_nil _).symm

/-- One hand-over is begun for each signal. -/
theorem begun_eq (hrun : s.run? es = some u) : ∃ handed,
    u.shared.begun = s.shared.begun ++ handed ∧ handed.length = (told es).length := by
  induction es generalizing s with
  | nil => cases hrun; exact ⟨[], (List.append_nil _).symm, rfl⟩
  | cons e es ih =>
    obtain ⟨t, hstep, hrest⟩ := foldlM_cons_eq_some_iff.mp hrun
    obtain ⟨handed, hbegun, hlength⟩ := ih hrest
    refine ⟨e.handOvers s ++ handed, ?_, ?_⟩
    · rw [hbegun, (step?_eq_some_iff.mp hstep).2.begun_eq, List.append_assoc]
    · rw [told_cons, List.length_append, List.length_append, Event.length_handOvers, hlength]

/-- The report on a signal is the answer of the reporter as it was when it was told. -/
theorem getElem?_begun {before after : List (Event ι σ)} {i : ι} {signal : Signal}
    (hinit : s.shared.begun = []) (hrun : s.run? (before ++ .tell i signal :: after) = some u)
    (hbefore : s.run? before = some t) :
    u.shared.begun[(told before).length]? = some (i, (t.reporter.answer signal).2) := by
  obtain ⟨t', ht', hrest⟩ := foldlM_append_eq_some_iff.mp hrun
  obtain rfl : t = t' := Option.some.inj (hbefore.symm.trans ht')
  obtain ⟨v, hstep, hafter⟩ := foldlM_cons_eq_some_iff.mp hrest
  obtain ⟨handed, hbegun, hlength⟩ := begun_eq hbefore
  obtain ⟨later, hlater, -⟩ := begun_eq hafter
  rw [hinit, List.nil_append] at hbegun
  rw [hlater, (step?_eq_some_iff.mp hstep).2.begun_eq, hbegun, ← hlength, List.append_assoc,
    List.getElem?_append_right (Nat.le_refl _), Nat.sub_self]
  rfl

/-! ### Answers come in order -/

/-- The hand-over of the thread that has the lock, if it is under way. -/
def handing (s : LiveReporter ι σ) : List (ι × StatusReport) :=
  s.holder.toList.flatMap fun i => (s.shared.calls i).underWay.map fun r => (i, r)

/-- Hand-overs are answered in the order in which they are begun, but for the one under way. -/
structure InOrder (s : LiveReporter ι σ) : Prop where
  oneAtATime : s.OneAtATime
  answered :
    (s.shared.answers.map fun a => (a.thread, a.report)) ++ s.handing = s.shared.begun

omit [DecidableEq ι] [ResourceStore σ] in
theorem handing_of_isFree (h : s.isFree = true) : s.handing = [] := by
  unfold isFree at h
  unfold handing
  cases hholder : s.holder with
  | none => rfl
  | some i => simpa [hholder] using h

omit [ResourceStore σ] in
/-- A thread without a hand-over that is under way may do what it likes with its calls. -/
theorem handing_eq {i : ι} {c : Call} {shared : SharedPublisher ι σ}
    (hcalls : shared.calls = Function.update s.shared.calls i c) (hc : c.underWay = [])
    (hi : (s.shared.calls i).underWay = []) : handing { s with shared } = s.handing := by
  unfold handing
  congr 1
  funext j
  by_cases hij : j = i
  · simp [hcalls, hij, hc, hi]
  · simp [hcalls, Function.update_of_ne hij]

theorem Step.inOrder (h : s.Step e s') (hs : s.InOrder) : s'.InOrder := by
  refine ⟨h.oneAtATime hs.oneAtATime, ?_⟩
  have hanswered := hs.answered
  cases h with
  | watchDaemonSets | watchDeployments | change => exact hanswered
  | tell i signal hfree hover =>
    rw [handing_of_isFree hfree, List.append_nil] at hanswered
    simp [handing, SharedPublisher.request, Request.call, Call.underWay, Call.isOver, Call.report?,
      Request.reports, hanswered]
  | pass hevent hstep =>
    cases hstep with
    | relate | arrange | work => exact hanswered
    | request i q hover =>
      have hq : q.reports = [] := hevent
      rw [handing_eq rfl ((Request.underWay_call q).trans hq) (Call.underWay_of_isOver hover)]
      simpa [SharedPublisher.request, hq] using hanswered
    | @act i c p hact =>
      have hnext := Call.map_answers_append_underWay i c
      rw [hact.report?_eq, ← Call.underWay_of_not_isOver hact.isOver_eq] at hnext
      by_cases hi : (s.shared.calls i).underWay = []
      · rw [hi, List.map_nil, List.append_eq_nil_iff, List.map_eq_nil_iff, List.map_eq_nil_iff]
          at hnext
        rw [handing_eq rfl hnext.2 hi]
        simpa [SharedPublisher.act, hnext.1] using hanswered
      · -- only the thread that has the lock has a hand-over under way
        have hholder := hs.oneAtATime i hi
        simp only [handing, hholder, Option.toList_some, List.flatMap_singleton,
          SharedPublisher.act, Function.update_self, List.map_append] at hanswered ⊢
        rw [List.append_assoc, hnext]
        exact hanswered

theorem inOrder (hnew : new? name release capacity store inspector = .ok s₀)
    (hrun : s₀.run? es = some s) : s.InOrder := by
  refine run?_induction hrun ?_ fun e _ t t' h => h.inOrder
  obtain ⟨hshared, -, hholder⟩ := of_new? hnew
  obtain ⟨queue, -, -, -, hs⟩ := SharedPublisher.eq_of_new? hshared
  refine ⟨fun i hi => ?_, ?_⟩
  · simp [hs, Call.underWay, Call.isOver] at hi
  · simp [handing, hholder, hs]

/-! ### Passing on -/

/-- All that can happen to the publisher beside hand-overs can happen to the reporter. -/
theorem run?_pmap_pass {events : List (SharedPublisher.Event ι σ)} {shared : SharedPublisher ι σ}
    (hrun : s.shared.run? events = some shared) (hevents : ∀ event ∈ events, event.reports = []) :
    s.run? (events.pmap .pass hevents) = some { s with shared } := by
  induction events generalizing s with
  | nil => cases hrun; rfl
  | cons event events ih =>
    obtain ⟨v, hstep, hrest⟩ := foldlM_cons_eq_some_iff.mp hrun
    refine foldlM_cons_eq_some_iff.mpr ⟨{ s with shared := v }, ?_, ih (s := { s with shared := v })
      hrest _⟩
    obtain ⟨hlive, hrule⟩ := SharedPublisher.step?_eq_some_iff.mp hstep
    exact step?_eq_some_iff.mpr ⟨hlive, .pass _ hrule⟩

theorem run?_replicate_act {i : ι} {n : Nat} {shared : SharedPublisher ι σ}
    (hrun : s.shared.run? (List.replicate n (.act i)) = some shared) :
    s.run? (List.replicate n (.pass (.act i) rfl)) = some { s with shared } := by
  have hreports : ∀ event ∈ List.replicate n (SharedPublisher.Event.act (σ := σ) i),
      event.reports = [] := fun event h => by rw [List.eq_of_mem_replicate h]; rfl
  rw [← run?_pmap_pass hrun hreports]
  refine congrArg _ (List.eq_replicate_iff.mpr ⟨by simp, fun e he => ?_⟩).symm
  obtain ⟨event, hmem, rfl⟩ := List.mem_pmap.mp he
  cases List.eq_of_mem_replicate hmem
  rfl

end LiveReporter

end OperatorHealth
