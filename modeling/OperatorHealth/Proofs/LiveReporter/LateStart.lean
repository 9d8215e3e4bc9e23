import OperatorHealth.Proofs.LiveReporter.Told
import OperatorHealth.Proofs.SharedPublisher.LateStart
import OperatorHealth.Workload.Static

/-!
# A reporter whose publisher is started late

Parts of an operator tell a reporter how they are before its publisher is started. All of it goes
into the ledger. Of the reports on it only the first are kept, and these are the reports on what was
told first. They have their cycles once the publisher is started. The others are lost, but the
ledger still has what they were about.

## Main definitions

* `LiveReporter.NeverStarts`, `LiveReporter.OnlyStarts`: what happens before the publisher is
  started, and from then on.
* `LiveReporter.KeepsFirst`: all of what a reporter does whose publisher is started late.

## Main results

* `LiveReporter.answers`: the answer to each signal.
* `LiveReporter.keepsFirst`: all of it.
* `LiveReporter.first_kept`: the first reports are kept, by a publisher and by a reporter.
-/

namespace OperatorHealth

namespace LiveReporter

variable {ι σ : Type}

/-! ### Before the publisher is started -/

/-- A thread starts or stops the publisher. -/
def Event.IsStartOrStop : Event ι σ → Prop
  | .pass (.request ..) _ => True
  | _ => False

/-- Nobody starts or stops the publisher. -/
def NeverStarts (es : List (Event ι σ)) : Prop :=
  ∀ e ∈ es, ¬ e.IsStartOrStop

/-- An event of a start, or of the worker, or one that does not concern the publisher. -/
def Event.IsStartOrWork : Event ι σ → Prop
  | .tell .. => False
  | .pass event _ => event.IsStartOrWork
  | _ => True

/-- Threads tell nothing more and at most start the publisher, and nothing else touches the
store. -/
def OnlyStarts (es : List (Event ι σ)) : Prop :=
  ∀ e ∈ es, e.IsStartOrWork

theorem NeverStarts.shared {es : List (Event ι σ)} {events : List (SharedPublisher.Event ι σ)}
    (hes : NeverStarts es) (hdoes : ∀ event ∈ events, ∃ e ∈ es, e.Does event) :
    SharedPublisher.NeverStarts events := by
  intro i q hq
  obtain ⟨e, he, hevent⟩ := hdoes _ hq
  cases hevent with
  | tell i hledger signal => exact ⟨_, rfl⟩
  | pass event hnone => exact absurd trivial (hes _ he)

theorem OnlyStarts.shared {es : List (Event ι σ)} {events : List (SharedPublisher.Event ι σ)}
    (hes : OnlyStarts es) (hdoes : ∀ event ∈ events, ∃ e ∈ es, e.Does event) :
    SharedPublisher.OnlyStarts events := by
  intro event hmem
  obtain ⟨e, he, hevent⟩ := hdoes event hmem
  have hstart := hes e he
  cases hevent with
  | tell i hledger signal => exact hstart.elim
  | pass event hnone => exact hstart

theorem OnlyStarts.told_eq {es : List (Event ι σ)} (hes : OnlyStarts es) : told es = [] := by
  rw [told, List.flatMap_eq_nil_iff]
  intro e he
  have hstart := hes e he
  cases e with
  | tell i signal => exact hstart.elim
  | _ => rfl

theorem Event.reports_of_mem_startAndWork (i : ι) (nows : List Instant) :
    ∀ event ∈ SharedPublisher.Event.startAndWork (σ := σ) i nows, event.reports = [] := by
  intro event h
  simp only [SharedPublisher.Event.startAndWork, SharedPublisher.Event.wholeCall, List.mem_append,
    List.mem_cons, List.mem_replicate, List.mem_map] at h
  rcases h with (rfl | ⟨-, rfl⟩) | ⟨now, -, rfl⟩ <;> rfl

/-- A thread starts the publisher, and the worker takes its actions at the given times. -/
def Event.startAndWork (i : ι) (nows : List Instant) : List (Event ι σ) :=
  (SharedPublisher.Event.startAndWork i nows).pmap .pass (reports_of_mem_startAndWork i nows)

theorem Event.onlyStarts_startAndWork (i : ι) (nows : List Instant) :
    OnlyStarts (startAndWork (σ := σ) i nows) := by
  intro e he
  obtain ⟨event, hmem, rfl⟩ := List.mem_pmap.mp he
  exact SharedPublisher.Event.onlyStarts_startAndWork i nows event hmem

section Unstarted

variable [DecidableEq ι] [ResourceStore σ] {s₀ s t u : LiveReporter ι σ} {e : Event ι σ}
  {es es' : List (Event ι σ)} {name release : String} {capacity : Nat}
  {related : List ObjectReference} {store : σ} {inspector : Inspector} {i : ι}

omit [DecidableEq ι] [ResourceStore σ] in
theorem exists_new? (name release : String) (hcapacity : 0 < capacity) (store : σ)
    (inspector : Inspector) :
    ∃ s₀ : LiveReporter ι σ, new? name release capacity store inspector = .ok s₀ := by
  simp [new?, Reporter.new?, Publisher.new?, BoundedQueue.new?, hcapacity, Except.map]

theorem isUnstarted (hnew : new? name release capacity store inspector = .ok s₀)
    (hrun : s₀.run? es = some s) (hes : NeverStarts es) : s.shared.IsUnstarted capacity := by
  obtain ⟨hshared, hledger, -⟩ := of_new? hnew
  obtain ⟨events, hevents, hdoes, -⟩ := exists_run?_shared_does hrun hledger
  exact SharedPublisher.isUnstarted hshared hevents (hes.shared hdoes)

omit [DecidableEq ι] [ResourceStore σ] in
/-- When the lock is free no thread is in a call. -/
theorem isOver_of_isFree (hs : s.shared.IsUnstarted capacity) (horder : s.InOrder)
    (hfree : s.isFree = true) (i : ι) : (s.shared.calls i).isOver = true := by
  by_contra hunder
  rw [Bool.not_eq_true] at hunder
  have hreport := Call.underWay_ne_nil_of_isOffering (hs.isOffering i) hunder
  rw [isFree, horder.oneAtATime i hreport] at hfree
  exact hreport (by simpa using hfree)

/-- Each signal has one answer, to the report on it, and just those that were told first are
accepted. -/
theorem answers (hnew : new? name release capacity store inspector = .ok s₀)
    (hrun : s₀.run? es = some s) (hes : NeverStarts es) (hfree : s.isFree = true) :
    s.shared.answers.length = (told es).length ∧
    ∀ before i signal after t, es = before ++ .tell i signal :: after →
      s₀.run? before = some t → s.shared.answers[(told before).length]? =
        some ⟨i, (t.reporter.answer signal).2, decide ((told before).length < capacity)⟩ := by
  obtain ⟨hshared, -, -⟩ := of_new? hnew
  obtain ⟨queue, -, -, -, hs₀⟩ := SharedPublisher.eq_of_new? hshared
  have hinit : s₀.shared.begun = [] := by rw [hs₀]
  have hanswered := (inOrder hnew hrun).answered
  rw [handing_of_isFree hfree, List.append_nil] at hanswered
  constructor
  · obtain ⟨handed, hbegun, hlength⟩ := begun_eq hrun
    rw [hinit, List.nil_append, ← hanswered] at hbegun
    rw [← hlength, ← hbegun, List.length_map]
  · rintro before i signal after t rfl hbefore
    have hbegun := getElem?_begun hinit hrun hbefore
    rw [← hanswered, List.getElem?_map, Option.map_eq_some_iff] at hbegun
    obtain ⟨⟨j, r, accepted⟩, hfound, hanswer⟩ := hbegun
    cases hanswer
    have hfirst := (isUnstarted hnew hrun hes).accepted_iff _ _ hfound
    rw [hfound, Option.some.injEq, Answer.mk.injEq, Bool.eq_iff_iff, decide_eq_true_iff]
    exact ⟨rfl, rfl, hfirst⟩

/-- The thread that has the lock gets its answer by its own actions. -/
theorem exists_run?_acts (hs : s.shared.IsUnstarted capacity) (horder : s.InOrder)
    {r : StatusReport} (hr : (s.shared.calls i).underWay = [r]) :
    ∃ n ≤ 5, ∃ t, s.run? (List.replicate n (.pass (.act i) rfl)) = some t ∧ t.isFree = true ∧
      t.shared.IsUnstarted capacity ∧ t.InOrder := by
  obtain ⟨n, hn, shared, hacts, hcall, -, hshared⟩ := hs.exists_run?_acts hr
  have hrun := run?_replicate_act hacts
  refine ⟨n, hn.trans (Call.actionsLeft_le _), _, hrun, ?_, hshared,
    run?_induction hrun horder fun e _ t t' h => h.inOrder⟩
  simp [isFree, horder.oneAtATime i (by simp [hr]), hcall, Call.underWay, Call.isOver]

/-- A thread tells signals, one after the other, and needs nobody else. -/
theorem exists_run?_tells (hs : s.shared.IsUnstarted capacity) (horder : s.InOrder)
    (hfree : s.isFree = true) (i : ι) (signals : List Signal) :
    ∃ es t, s.run? es = some t ∧ told es = signals ∧
      (∀ e ∈ es, e = .pass (.act i) rfl ∨ ∃ signal ∈ signals, e = .tell i signal) ∧
      t.isFree = true := by
  induction signals generalizing s with
  | nil => exact ⟨[], s, rfl, rfl, List.forall_mem_nil _, hfree⟩
  | cons signal signals ih =>
    have hover := isOver_of_isFree hs horder hfree i
    have hstep := Step.tell i signal hfree hover
    have hrequest := SharedPublisher.Step.request i
      (.handOver (s.reporter.answer signal).2) hover
    obtain ⟨n, -, t, hacts, htfree, ht, htorder⟩ := exists_run?_acts
      (hrequest.isUnstarted (fun j q h => ⟨_, by cases h; rfl⟩) hs) (hstep.inOrder horder) (i := i)
      (by rw [SharedPublisher.calls_request]; rfl)
    obtain ⟨es, u, hrest, htold, hes, hufree⟩ := ih ht htorder htfree
    refine ⟨.tell i signal :: (List.replicate n (.pass (.act i) rfl) ++ es), u, ?_, ?_, ?_, hufree⟩
    · exact hstep.run?_cons hs.live (run?_append hacts hrest)
    · rw [told_cons, told_append, told_replicate_act, htold]
      rfl
    · intro e he
      simp only [List.mem_cons, List.mem_append, List.mem_replicate] at he
      rcases he with rfl | ⟨-, rfl⟩ | he
      · exact .inr ⟨signal, List.mem_cons_self, rfl⟩
      · exact .inl rfl
      · rcases hes e he with hact | ⟨signal', hmem, hsignal⟩
        · exact .inl hact
        · exact .inr ⟨signal', List.mem_cons_of_mem _ hmem, hsignal⟩

/-! ### All of it -/

/-- What a reporter does that was new as `s₀` and has come to `s` in a run in which nobody started
its publisher. -/
structure KeepsFirst (capacity : Nat) (s₀ : LiveReporter ι σ) (es : List (Event ι σ))
    (s : LiveReporter ι σ) : Prop where
  /-- The ledger has all that was told. -/
  ledger : s.ledger = .after (told es)
  /-- The publisher keeps the reports that are answered first. -/
  shared : s.shared.KeepsFirst capacity
  /-- There is an answer to each signal. -/
  answered : s.isFree = true → s.shared.answers.length = (told es).length
  /-- It is the answer to the report on that signal, and just those that were told first are
  accepted. -/
  answer : s.isFree = true → ∀ before i signal after t, es = before ++ .tell i signal :: after →
    s₀.run? before = some t → s.shared.answers[(told before).length]? =
      some ⟨i, (t.reporter.answer signal).2, decide ((told before).length < capacity)⟩
  /-- No thread keeps the lock: it gives it back after at most five actions of its own. -/
  neverWaits : ∀ i r, (s.shared.calls i).underWay = [r] → ∃ n ≤ 5, ∃ t,
    s.run? (List.replicate n (.pass (.act i) rfl)) = some t ∧ t.isFree = true
  /-- So a thread can tell any signals, one after the other, and needs nobody else. -/
  tells : s.isFree = true → ∀ i signals, ∃ es' t, s.run? es' = some t ∧ told es' = signals ∧
    (∀ e ∈ es', e = .pass (.act i) rfl ∨ ∃ signal ∈ signals, e = .tell i signal) ∧
    t.isFree = true
  /-- Once there is a worker and it has nothing left to do, the reports on what was told first have
  had their cycles, and the ledger still has all that was told. -/
  appliesFirst : s.isFree = true → ∀ es' u now, s.run? es' = some u → OnlyStarts es' →
    u.shared.publisher.worker ≠ .absent → u.shared.publisher.work? now = none →
      s.shared.AppliesFirst capacity u.shared ∧ u.ledger = .after (told es)
  /-- Any thread can see to that, whatever the clock shows. -/
  exists_start : s.isFree = true → ∀ (i : ι) (nows : List Instant),
    nows.length = 3 * min capacity s.shared.answers.length → ∃ u,
      s.run? (Event.startAndWork i nows) = some u ∧
      OnlyStarts (Event.startAndWork (σ := σ) i nows) ∧ u.shared.publisher.running = true ∧
      u.shared.publisher.worker ≠ .absent ∧ ∀ now, u.shared.publisher.work? now = none

/-- The worker runs the cycles of the reports on what was told first. -/
theorem appliesFirst (hnew : new? name release capacity store inspector = .ok s₀)
    (hrun : s₀.run? es = some s) (hes : NeverStarts es) (hfree : s.isFree = true)
    (hlater : s.run? es' = some u) (hes' : OnlyStarts es')
    (hthere : u.shared.publisher.worker ≠ .absent) {now : Instant}
    (hwork : u.shared.publisher.work? now = none) : s.shared.AppliesFirst capacity u.shared := by
  obtain ⟨hshared, hledger, -⟩ := of_new? hnew
  obtain ⟨events, hevents, hdoes, signals, hsignals⟩ := exists_run?_shared_does hrun hledger
  obtain ⟨events', hevents', hdoes', -⟩ := exists_run?_shared_does hlater hsignals
  have hover := isOver_of_isFree (isUnstarted hnew hrun hes) (inOrder hnew hrun) hfree
  exact SharedPublisher.appliesFirst hshared hevents (hes.shared hdoes) hover hevents'
    (hes'.shared hdoes') hthere hwork

/-- A thread starts the publisher, and the worker goes on until it has nothing to do. -/
theorem exists_run?_startAndWork (hs : s.shared.IsUnstarted capacity) (horder : s.InOrder)
    (hfree : s.isFree = true) (i : ι) {nows : List Instant}
    (hnows : nows.length = 3 * min capacity s.shared.answers.length) :
    ∃ u, s.run? (Event.startAndWork i nows) = some u ∧
      OnlyStarts (Event.startAndWork (σ := σ) i nows) ∧ u.shared.publisher.running = true ∧
      u.shared.publisher.worker ≠ .absent ∧ ∀ now, u.shared.publisher.work? now = none := by
  obtain ⟨shared, hrun, hstarted⟩ :=
    hs.exists_run?_startAndWork (isOver_of_isFree hs horder hfree i) hnows
  exact ⟨{ s with shared }, run?_pmap_pass hrun (Event.reports_of_mem_startAndWork i nows),
    Event.onlyStarts_startAndWork i nows, hstarted⟩

theorem keepsFirst (hnew : new? name release capacity store inspector = .ok s₀)
    (hrun : s₀.run? es = some s) (hes : NeverStarts es) : KeepsFirst capacity s₀ es s := by
  obtain ⟨hshared, hledger, -⟩ := of_new? hnew
  obtain ⟨events, hevents, hdoes, -⟩ := exists_run?_shared_does hrun hledger
  have hs := isUnstarted hnew hrun hes
  have horder := inOrder hnew hrun
  have htold := ledger_eq hrun hledger
  rw [List.nil_append] at htold
  refine
    { ledger := htold
      shared := SharedPublisher.keepsFirst hshared hevents (hes.shared hdoes)
      answered := fun hfree => (answers hnew hrun hes hfree).1
      answer := fun hfree => (answers hnew hrun hes hfree).2
      neverWaits := fun i r hr => ?_
      tells := fun hfree => exists_run?_tells hs horder hfree
      appliesFirst := fun hfree es' u now hlater hes' hthere hwork => ⟨?_, ?_⟩
      exists_start := fun hfree i nows => exists_run?_startAndWork hs horder hfree i }
  · obtain ⟨n, hn, t, hacts, hfree, -⟩ := exists_run?_acts hs horder hr
    exact ⟨n, hn, t, hacts, hfree⟩
  · exact appliesFirst hnew hrun hes hfree hlater hes' hthere hwork
  · rw [ledger_eq hlater htold, hes'.told_eq, List.append_nil]

/-- **Before a start the first reports are kept and the others refused.** Threads hand over any
reports to a publisher of any capacity, which nobody has started or stopped. Nobody waits, and just
the reports that are answered first are accepted, as many as there is room for. Nothing is stored or
counted. After a start, once the worker has nothing left to do, just these reports have had their
cycles, in order, the tally and the store are those of these cycles, and nothing is pending.

The same holds for the reports of a reporter whose publisher nobody has started or stopped, whatever
threads tell it in any interleaving: the reports on what was told first are kept, and the ledger has
all that was told. -/
theorem first_kept (hcapacity : 0 < capacity) :
    (∃ s₀ : SharedPublisher ι σ,
      SharedPublisher.new? name release capacity related store = .ok s₀ ∧
      ∀ es s, s₀.run? es = some s → SharedPublisher.NeverStarts es →
        s.KeepsFirst capacity ∧ ((∀ f, .arrange f ∉ es) → s.publisher.store = store)) ∧
    ∃ s₀ : LiveReporter ι σ, new? name release capacity store inspector = .ok s₀ ∧
      ∀ es s, s₀.run? es = some s → NeverStarts es →
        KeepsFirst capacity s₀ es s ∧
        ((∀ f, .pass (.arrange f) rfl ∉ es) → s.shared.publisher.store = store) := by
  obtain ⟨p₀, hp₀⟩ := SharedPublisher.exists_new? (ι := ι) name release hcapacity related store
  obtain ⟨s₀, hs₀⟩ := exists_new? (ι := ι) name release hcapacity store inspector
  refine ⟨⟨p₀, hp₀, fun es s hrun hes => ⟨SharedPublisher.keepsFirst hp₀ hrun hes,
    SharedPublisher.store_eq_of_neverStarts hp₀ hrun hes⟩⟩, s₀, hs₀, fun es s hrun hes =>
    ⟨keepsFirst hs₀ hrun hes, fun harrange => ?_⟩⟩
  obtain ⟨hshared, hledger, -⟩ := of_new? hs₀
  obtain ⟨events, hevents, hdoes, -⟩ := exists_run?_shared_does hrun hledger
  refine SharedPublisher.store_eq_of_neverStarts hshared hevents (hes.shared hdoes) fun f hf => ?_
  obtain ⟨e, he, hevent⟩ := hdoes _ hf
  cases hevent with
  | pass event hnone => exact harrange f he

end Unstarted

/-- Two threads hand over three reports before there is a worker. -/
def rush : List (SharedPublisher.Event Bool MemoryStore) :=
  [.request true (.handOver ⟨[], false⟩), .act true, .request false (.handOver ⟨[], true⟩),
    .act true, .act false, .act true, .act false, .act true, .act false, .act false] ++
  SharedPublisher.Event.wholeCall true (.handOver ⟨[upgradeAllowed], true⟩) 5

/-- Two threads tell a reporter that it is degraded for two reasons and then for one, before its
publisher is started. -/
def rushOfSignals : List (Event Bool MemoryStore) :=
  .tell true (.degraded .operatorConfig "RenderError" "") ::
    List.replicate 4 (.pass (.act true) rfl) ++
  .tell false (.degraded .podDeployment "RolloutHung" "") ::
    List.replicate 4 (.pass (.act false) rfl) ++
  .tell true (.recovered .operatorConfig) :: List.replicate 5 (.pass (.act true) rfl)

theorem exists_rush : ∃ s₀ s : SharedPublisher Bool MemoryStore,
    SharedPublisher.new? "network" "4.1.0" 2 [] {} = .ok s₀ ∧ s₀.run? rush = some s ∧
    (∀ i, (s.calls i).isOver = true) ∧
    s.answers = [⟨true, ⟨[], false⟩, true⟩, ⟨false, ⟨[], true⟩, true⟩,
      ⟨true, ⟨[upgradeAllowed], true⟩, false⟩] :=
  ⟨_, _, rfl, rfl, by decide, rfl⟩

theorem exists_rushOfSignals : ∃ s₀ s : LiveReporter Bool MemoryStore,
    new? "network" "4.1.0" 2 {} (WorkloadTable.inspector {}) = .ok s₀ ∧
    s₀.run? rushOfSignals = some s ∧ s.isFree = true := by
  refine ⟨_, _, rfl, rfl, ?_⟩
  rfl

/-- There is room for two of three reports, and for those on two of three signals. -/
theorem first_kept_twoOfThree : 0 < 2 ∧
    (∃ s₀ s t : SharedPublisher Bool MemoryStore,
      SharedPublisher.new? "network" "4.1.0" 2 [] {} = .ok s₀ ∧ s₀.run? rush = some s ∧
      s.AppliesFirst 2 t ∧ s.answers.length = 3 ∧ t.processed = [⟨[], false⟩, ⟨[], true⟩]) ∧
    ∃ s₀ s u : LiveReporter Bool MemoryStore,
      new? "network" "4.1.0" 2 {} (WorkloadTable.inspector {}) = .ok s₀ ∧
      s₀.run? rushOfSignals = some s ∧ s.shared.AppliesFirst 2 u.shared ∧
      u.ledger = .after [.degraded .operatorConfig "RenderError" "",
        .degraded .podDeployment "RolloutHung" "", .recovered .operatorConfig] := by
  obtain ⟨⟨p₀, hp₀, hkept⟩, s₀, hs₀, hkept'⟩ := @first_kept Bool MemoryStore _ _ "network" "4.1.0" 2
    [] {} (WorkloadTable.inspector {}) (by decide)
  refine ⟨by decide, ?_, ?_⟩
  · obtain ⟨q₀, s, hnew, hrun, hover, hanswers⟩ := exists_rush
    obtain rfl : q₀ = p₀ := Except.ok.inj (hnew.symm.trans hp₀)
    obtain ⟨hkeeps, -⟩ := hkept rush s hrun (by
      simp [rush, SharedPublisher.NeverStarts, SharedPublisher.Event.wholeCall])
    obtain ⟨t, hlater, hstarts, -, hthere, hnone⟩ := hkeeps.exists_start false (hover false)
      (List.replicate 6 (.ofSeconds 1)) (by rw [hanswers]; rfl)
    have happlied := hkeeps.appliesFirst hover _ t _ hlater hstarts hthere (hnone (.ofSeconds 1))
    refine ⟨q₀, s, t, hnew, hrun, happlied, by rw [hanswers]; rfl, ?_⟩
    rw [happlied.processed, hanswers]
    rfl
  · obtain ⟨r₀, s, hnew, hrun, hfree⟩ := exists_rushOfSignals
    obtain rfl : r₀ = s₀ := Except.ok.inj (hnew.symm.trans hs₀)
    obtain ⟨hkeeps, -⟩ := hkept' rushOfSignals s hrun (by
      simp [rushOfSignals, NeverStarts, Event.IsStartOrStop])
    obtain ⟨u, hlater, hstarts, -, hthere, hnone⟩ := hkeeps.exists_start hfree false
      (List.replicate 6 (.ofSeconds 1)) (by rw [hkeeps.answered hfree]; rfl)
    obtain ⟨happlied, hledger⟩ :=
      hkeeps.appliesFirst hfree _ u _ hlater hstarts hthere (hnone (.ofSeconds 1))
    exact ⟨r₀, s, u, hnew, hrun, happlied, hledger⟩

end LiveReporter

end OperatorHealth
