import OperatorHealth.Proofs.SharedPublisher.Unstarted

/-!
# A publisher that is started late

Reports were handed over to a publisher before it was started. Those that were answered first are
in the queue and wait for a worker. Once there is one, it runs the cycles of just these reports, in
order, as if no others had ever been handed over.

## Main definitions

* `SharedPublisher.OnlyStarts`: what happens from the first start on.
* `SharedPublisher.AppliesFirst`: the reports that came first have had their cycles, and no others.
* `SharedPublisher.KeepsFirst`: all of what a publisher does that is started late.

## Main results

* `SharedPublisher.appliesFirst`: what the worker does.
* `SharedPublisher.IsUnstarted.exists_run?_startAndWork`: any thread can see to that.
* `SharedPublisher.keepsFirst`: all of it.
-/

namespace OperatorHealth

/-- A call that starts the publisher and is not over. -/
def Call.IsStart : Call → Prop
  | startCheck => True
  | reserve => True
  | launch => True
  | place => True
  | _ => False

/-- A start that has become the one to launch the worker, and has not put it in its place. -/
def Call.IsLaunching : Call → Prop
  | launch => True
  | place => True
  | _ => False

theorem Call.isOver_of_isLaunching {c : Call} (h : c.IsLaunching) : c.isOver = false := by
  cases c <;> first | rfl | exact h.elim

theorem Call.isCounted_of_isStart {c : Call} (h : c.IsStart) : c.isCounted = false := by
  cases c <;> first | rfl | exact h.elim

namespace Publisher

variable {σ : Type} {p p' : Publisher σ} {c c' : Call}

/-- What an action of a start does: it changes nothing, it is the one that makes the start the one
to launch the worker, the one that launches it or puts it in its place, or the one that ends the
program. -/
inductive StartStep (p : Publisher σ) (c c' : Call) (p' : Publisher σ) : Prop
  | looked (hc' : c' = .reserve ∨ c' = .done) (hp : p' = p)
  | reserved (hidle : p.running = false) (hc' : c' = .launch) (hp : p' = { p with running := true })
  | launched (hc : c = .launch) (hc' : c' = .place) (hp : p' = { p with worker := .taking })
  | placed (hc : c = .place) (hc' : c' = .done) (hp : p' = { p with joinable := true })
  | terminated (hc : c = .launch ∧ p.worker ≠ .absent ∨ c = .place ∧ p.joinable = true)

theorem CallStep.startStep (h : CallStep p c c' p') (hc : c.IsStart) : StartStep p c c' p' := by
  cases h with
  | startClosed => exact .looked (.inr rfl) rfl
  | startOpen => exact .looked (.inl rfl) rfl
  | reserved hrunning => exact .looked (.inr rfl) (by rw [← hrunning])
  | reserve hidle => exact .reserved hidle rfl rfl
  | launch hworker => exact .launched rfl rfl rfl
  | place hplace => exact .placed rfl rfl rfl
  | crowd hworker => exact .terminated (.inl ⟨rfl, hworker⟩)
  | displace hplace => exact .terminated (.inr ⟨rfl, hplace⟩)
  | enter r hc' => rcases hc' with rfl | rfl <;> exact hc.elim
  | refuse r hc' => rcases hc' with ⟨rfl, -⟩ | ⟨rfl, -⟩ <;> exact hc.elim
  | _ => exact hc.elim

/-- A worker that has nothing to do is not there, is gone, or waits for a report. -/
theorem eq_of_work?_eq_none [ResourceStore σ] {now : Instant} (hlive : p.terminated = false)
    (h : p.work? now = none) :
    p.worker = .absent ∨ p.worker = .finished ∨ p.worker = .taking ∧ p.queue.items = [] := by
  rw [work?, hlive, if_neg Bool.false_ne_true] at h
  cases hworker : p.worker with
  | absent => exact .inl rfl
  | finished => exact .inr (.inl rfl)
  | taking =>
    cases hitems : p.queue.items with
    | nil => exact .inr (.inr ⟨rfl, rfl⟩)
    | cons r rest => simp [workAlive?, hworker, BoundedQueue.pop?, hitems] at h
  | publishing r => simp [workAlive?, hworker] at h
  | completing => simp [workAlive?, hworker] at h

end Publisher

namespace SharedPublisher

variable {ι σ : Type} [DecidableEq ι] [ResourceStore σ] {s₀ s t : SharedPublisher ι σ}
  {e : Event ι σ} {name release : String} {capacity : Nat} {related : List ObjectReference}
  {store : σ} {es es' : List (Event ι σ)} {i : ι} {now : Instant}

/-! ### What the worker does -/

/-- An event of a start, or of the worker. Cycles apart, no such event touches the store or what
cycles read. -/
def Event.IsStartOrWork : Event ι σ → Prop
  | .request _ q => q = .start
  | .act _ => True
  | .work _ => True
  | .relate _ => False
  | .arrange _ => False

/-- Threads do no more than start the publisher, and nothing else touches the store. -/
def OnlyStarts (es : List (Event ι σ)) : Prop :=
  ∀ e ∈ es, e.IsStartOrWork

/-- A thread starts the publisher, and the worker takes its actions at the given times. -/
def Event.startAndWork (i : ι) (nows : List Instant) : List (Event ι σ) :=
  Event.wholeCall i .start 4 ++ nows.map .work

omit [DecidableEq ι] [ResourceStore σ] in
theorem Event.onlyStarts_startAndWork (i : ι) (nows : List Instant) :
    OnlyStarts (startAndWork (σ := σ) i nows) := by
  simp [OnlyStarts, startAndWork, wholeCall, IsStartOrWork]

/-- From `s` on, where nobody had started the publisher, it has come to `t`: it has run the cycles
of the reports that came first, in order, and no others, and nothing is pending. -/
structure AppliesFirst (capacity : Nat) (s t : SharedPublisher ι σ) : Prop where
  answers : t.answers = s.answers
  processed : t.processed = (s.answers.take capacity).map (·.report)
  total : t.publisher.tally.published + t.publisher.tally.skipped + t.publisher.tally.failed =
    min capacity s.answers.length
  books : (t.publisher.tally, t.publisher.store) =
    publishAll s.publisher.name s.publisher.release s.publisher.related
      (t.clock.zip t.processed) ({}, s.publisher.store)
  isIdle : t.publisher.isIdle = true

/-- Since `s`, where no call was under way, the publisher has at most been started, and the worker
has worked. The queue is open, so the worker stays, and at most one start comes to launch one. -/
structure IsStarting (s t : SharedPublisher ι σ) : Prop where
  answers : t.answers = s.answers
  isOpen : t.publisher.queue.closed = false
  live : t.publisher.terminated = false
  calls : ∀ i, (t.calls i).isOver = true ∨ (t.calls i).IsStart
  idle : t.publisher.running = false →
    t.publisher.worker = .absent ∧ t.publisher.joinable = false
  launching : ∀ i, (t.calls i).IsLaunching → t.publisher.running = true ∧
    t.publisher.joinable = false ∧ ∀ j, (t.calls j).IsLaunching → j = i
  absent : ∀ i, t.calls i = .launch → t.publisher.worker = .absent

namespace IsStarting

omit [DecidableEq ι] [ResourceStore σ] in
/-- A start that begins, goes on to look, or is over changes nothing else. -/
theorem of_calls (ht : s.IsStarting t) {t' : SharedPublisher ι σ}
    (hpublisher : t'.publisher = t.publisher) (hanswers : t'.answers = t.answers)
    (hcalls : ∀ j, t'.calls j = t.calls j ∨
      t'.calls j = .startCheck ∨ t'.calls j = .reserve ∨ t'.calls j = .done) :
    s.IsStarting t' := by
  have hold : ∀ j, (t'.calls j).IsLaunching → t'.calls j = t.calls j := fun j hj =>
    (hcalls j).resolve_right fun h => by
      rcases h with h | h | h <;> rw [h] at hj <;> exact hj
  obtain ⟨hbefore, hopen, hlive, hstarts, hidle, hlaunching, habsent⟩ := ht
  rw [← hpublisher] at hopen hlive hidle hlaunching habsent
  refine ⟨hanswers.trans hbefore, hopen, hlive, fun j => ?_, hidle, fun j hj => ?_, fun j hj =>
    habsent j ((hold j (hj ▸ trivial)).symm.trans hj)⟩
  · rcases hcalls j with h | h | h | h <;> rw [h]
    · exact hstarts j
    · exact .inr trivial
    · exact .inr trivial
    · exact .inl rfl
  · obtain ⟨hrunning, hplace, hone⟩ := hlaunching j (hold j hj ▸ hj)
    exact ⟨hrunning, hplace, fun k hk => hone k (hold k hk ▸ hk)⟩

omit [ResourceStore σ]

theorem request (ht : s.IsStarting t) (i : ι) : s.IsStarting (t.request i .start) :=
  ht.of_calls rfl rfl fun j => (t.calls_request_cases i j .start).symm.imp_right .inl

/-- A start finds out whether it may go on. -/
theorem act_looked (ht : s.IsStarting t) (i : ι) {c : Call} (hc : c = .reserve ∨ c = .done) :
    s.IsStarting (t.act i c t.publisher) := by
  refine ht.of_calls rfl ?_ fun j =>
    (t.calls_act_cases i j c t.publisher).symm.imp_right fun h => .inr ?_
  · rcases hc with rfl | rfl <;> exact List.append_nil _
  · exact hc.imp h.trans h.trans

/-- A start goes on, or is over. -/
theorem calls_act (ht : s.IsStarting t) {c : Call} (hc : c.isOver = true ∨ c.IsStart)
    (p : Publisher σ) (j : ι) : ((t.act i c p).calls j).isOver = true ∨
      ((t.act i c p).calls j).IsStart := by
  rcases t.calls_act_cases i j c p with h | h <;> rw [h]
  · exact hc
  · exact ht.calls j

/-- The action of a thread brings no other start to launch the worker. -/
theorem eq_of_isLaunching (hone : ∀ j, (t.calls j).IsLaunching → j = i) {c : Call}
    {p : Publisher σ} {j : ι} (hj : ((t.act i c p).calls j).IsLaunching) : j = i := by
  by_contra hij
  rw [calls_act_of_ne hij] at hj
  exact hij (hone j hj)

/-- A start becomes the one to launch the worker. No other one is. -/
theorem act_reserved (ht : s.IsStarting t) (i : ι) (hidle : t.publisher.running = false) :
    s.IsStarting (t.act i .launch { t.publisher with running := true }) := by
  have hone : ∀ j, (t.calls j).IsLaunching → j = i := fun j hj => by
    cases hidle.symm.trans (ht.launching j hj).1
  obtain ⟨hworker, hplace⟩ := ht.idle hidle
  exact { ht with
    answers := (List.append_nil _).trans ht.answers
    calls := ht.calls_act (c := .launch) (.inr trivial) _
    idle := fun hrunning => by cases hrunning
    launching := fun j hj => ⟨rfl, hplace, fun k hk =>
      (eq_of_isLaunching hone hk).trans (eq_of_isLaunching hone hj).symm⟩
    absent := fun _ _ => hworker }

/-- The start that was to launch the worker does so. -/
theorem act_launched (ht : s.IsStarting t) (hcall : t.calls i = .launch) :
    s.IsStarting (t.act i .place { t.publisher with worker := .taking }) := by
  obtain ⟨hrunning, hplace, hone⟩ := ht.launching i (hcall ▸ trivial)
  refine { ht with
    answers := (List.append_nil _).trans ht.answers
    calls := ht.calls_act (c := .place) (.inr trivial) _
    idle := fun hidle => by cases hidle.symm.trans hrunning
    launching := fun j hj => ⟨hrunning, hplace, fun k hk =>
      (eq_of_isLaunching hone hk).trans (eq_of_isLaunching hone hj).symm⟩
    absent := fun j hj => ?_ }
  -- this was the only one
  by_cases hij : j = i
  · rw [hij, SharedPublisher.calls_act] at hj
    cases hj
  · rw [calls_act_of_ne hij] at hj
    exact absurd (hone j (hj ▸ trivial)) hij

/-- The start that has launched the worker puts it in its place. -/
theorem act_placed (ht : s.IsStarting t) (hcall : t.calls i = .place) :
    s.IsStarting (t.act i .done { t.publisher with joinable := true }) := by
  obtain ⟨hrunning, -, hone⟩ := ht.launching i (hcall ▸ trivial)
  have hnone : ∀ j,
      ¬ ((t.act i .done { t.publisher with joinable := true }).calls j).IsLaunching :=
    fun j hj => by
      obtain rfl := eq_of_isLaunching hone hj
      rw [SharedPublisher.calls_act] at hj
      exact hj
  exact { ht with
    answers := (List.append_nil _).trans ht.answers
    calls := ht.calls_act (c := .done) (.inl rfl) _
    idle := fun hidle => by cases hidle.symm.trans hrunning
    launching := fun j hj => absurd hj (hnone j)
    absent := fun j hj => absurd (hj ▸ trivial) (hnone j) }

end IsStarting

theorem Step.isStarting {t' : SharedPublisher ι σ} (h : t.Step e t') (he : e.IsStartOrWork)
    (ht : s.IsStarting t) : s.IsStarting t' := by
  cases h with
  | relate | arrange => exact he.elim
  | @work now p hwork =>
    have hthere : t.publisher.worker ≠ .absent := hwork.worker_ne_absent
    obtain ⟨hclosed, hlive, hrunning, hplace⟩ : p.queue.closed = t.publisher.queue.closed ∧
        p.terminated = t.publisher.terminated ∧ p.running = t.publisher.running ∧
        p.joinable = t.publisher.joinable := by
      cases hwork <;> exact ⟨rfl, rfl, rfl, rfl⟩
    refine { ht with
      isOpen := hclosed.trans ht.isOpen
      live := hlive.trans ht.live
      idle := fun hidle => absurd (ht.idle (hrunning.symm.trans hidle)).1 hthere
      launching := fun i hi => ?_
      absent := fun i hi => absurd (ht.absent i hi) hthere }
    obtain ⟨hrunning', hplace', hone⟩ := ht.launching i hi
    exact ⟨hrunning.trans hrunning', hplace.trans hplace', hone⟩
  | request i q hover =>
    obtain rfl : q = .start := he
    exact ht.request i
  | @act i c p hact =>
    cases hact.startStep ((ht.calls i).resolve_left (by simp [hact.isOver_eq])) with
    | looked hc hp => exact hp ▸ ht.act_looked i hc
    | reserved hidle hc hp => exact hc ▸ hp ▸ ht.act_reserved i hidle
    | launched hcall hc hp => exact hc ▸ hp ▸ ht.act_launched hcall
    | placed hcall hc hp => exact hc ▸ hp ▸ ht.act_placed hcall
    | terminated hc =>
      rcases hc with ⟨hcall, hworker⟩ | ⟨hcall, hplace⟩
      · exact absurd (ht.absent i hcall) hworker
      · cases hplace.symm.trans (ht.launching i (hcall ▸ trivial)).2.1

omit [DecidableEq ι] [ResourceStore σ] in
theorem IsUnstarted.isStarting (hs : s.IsUnstarted capacity)
    (hover : ∀ i, (s.calls i).isOver = true) : s.IsStarting s where
  answers := rfl
  isOpen := hs.isOpen
  live := hs.live
  calls i := .inl (hover i)
  idle _ := ⟨hs.worker, hs.place⟩
  launching i hi := by cases (hover i).symm.trans (Call.isOver_of_isLaunching hi)
  absent _ _ := hs.worker

/-- The worker of a publisher that was started late runs the cycles of the reports that came
first. -/
theorem appliesFirst (hnew : new? name release capacity related store = .ok s₀)
    (hrun : s₀.run? es = some s) (hes : NeverStarts es) (hover : ∀ i, (s.calls i).isOver = true)
    (hlater : s.run? es' = some t) (hes' : OnlyStarts es') (hthere : t.publisher.worker ≠ .absent)
    (hwork : t.publisher.work? now = none) : s.AppliesFirst capacity t := by
  have hs := isUnstarted hnew hrun hes
  have hreached := run?_append hrun hlater
  have ht : s.IsStarting t := run?_induction hlater (hs.isStarting hover) fun e he t t' h =>
    h.isStarting (hes' e he)
  obtain ⟨hworker, hitems⟩ : t.publisher.worker = .taking ∧ t.publisher.queue.items = [] := by
    rcases Publisher.eq_of_work?_eq_none ht.live hwork with habsent | hfinished | hwaiting
    · exact absurd habsent hthere
    · -- the worker has not gone, since the queue is open
      cases ht.isOpen.symm.trans (isOrderly hnew hreached hfinished).closed
    · exact hwaiting
  obtain ⟨hprocessed, htotal⟩ :=
    processed_of_isDrained hnew hreached ⟨hitems, by rw [hworker, Worker.held_taking]⟩
  have haccepted : t.accepted =
      (s.answers.take capacity).map fun a => (a.thread, a.report) := by
    rw [accepted, ht.answers, filter_eq_take hs.accepted_iff]
  refine ⟨ht.answers, ?_, ?_, ?_, ?_⟩
  · rw [hprocessed, haccepted, List.map_map]
    rfl
  · rw [← List.length_take, ← List.length_map (fun a : Answer ι => (a.thread, a.report)),
      ← haccepted]
    exact htotal
  · have hreplay : t.IsReplay s.publisher.name s.publisher.release s.publisher.related
        s.publisher.store := by
      refine run?_induction hlater ⟨rfl, rfl, rfl, ?_⟩ fun e he t t' h => ?_
      · rw [hs.cycles, hs.tally]
        rfl
      · have he := hes' e he
        exact h.isReplay (by rintro rs rfl; exact he) (by rintro f rfl; exact he)
    rw [hreplay.books_eq, clock, processed, List.zip_map']
  · have hnobody : t.handingOver = ∅ := by
      refine Set.eq_empty_of_forall_notMem fun i hi => ?_
      rcases ht.calls i with hover | hstart
      · simp [handingOver, Call.isCounted_of_isOver hover] at hi
      · simp [handingOver, Call.isCounted_of_isStart hstart] at hi
    have hpending := (balanced hnew hreached).pending_eq
    rw [hnobody, Set.ncard_empty, Publisher.load, hworker, BoundedQueue.size, hitems] at hpending
    simp [Publisher.isIdle, hpending, Worker.load]

/-! ### Starting late -/

/-- Any thread can start the publisher. -/
theorem IsUnstarted.exists_run?_start (hs : s.IsUnstarted capacity)
    (hover : (s.calls i).isOver = true) : ∃ t, s.run? (Event.wholeCall i .start 4) = some t ∧
      t.publisher = { s.publisher with running := true, worker := .taking, joinable := true } := by
  have hrequest : s.Step (.request i .start) (s.request i .start) := .request i .start hover
  obtain ⟨t, hacts, ht, -⟩ := SharedPublisher.exists_run?_start (s := s.request i .start)
    hs.toIsUnstarted (s.calls_request i .start)
  exact ⟨t, hrequest.run?_cons hs.live hacts, ht⟩

/-- The worker then takes three actions for each report that was accepted. -/
theorem IsUnstarted.exists_run?_startAndWork (hs : s.IsUnstarted capacity)
    (hover : (s.calls i).isOver = true) {nows : List Instant}
    (hnows : nows.length = 3 * min capacity s.answers.length) :
    ∃ t, s.run? (Event.startAndWork i nows) = some t ∧ t.publisher.running = true ∧
      t.publisher.worker ≠ .absent ∧ ∀ now, t.publisher.work? now = none := by
  obtain ⟨u, hstart, hu⟩ := hs.exists_run?_start hover
  have hworker : u.publisher.worker = .taking := by rw [hu]
  have hidle : u.publisher.idleWork = 1 := by simp [hu, Publisher.idleWork, hs.isOpen]
  have hleft : nows.length + u.publisher.idleWork = u.publisher.workLeft := by
    rw [hidle, hu, Publisher.workLeft, hs.size_eq, hnows]
  obtain ⟨t, hworks, -, hrunning, hidle', hdone⟩ :=
    exists_run?_works (Publisher.isAttended_of_taking hworker) (by rw [hu]; exact hs.live) hleft
  refine ⟨t, run?_append hstart hworks, hrunning.trans (by rw [hu]), fun habsent => ?_,
    Publisher.work?_eq_none_of_workLeft hdone⟩
  simp only [hidle', hidle, Publisher.workLeft, habsent] at hdone
  omega

/-! ### All of it -/

/-- What a publisher does for which no worker was started so far: it keeps the reports that are
answered first, as many as it has room for, and refuses all others. -/
structure KeepsFirst (capacity : Nat) (s : SharedPublisher ι σ) : Prop where
  /-- A thread is answered in the order of its calls. -/
  inOrder : s.AnsweredInOrder
  /-- Just the reports that are answered first are accepted. -/
  accepted_iff : ∀ k a, s.answers[k]? = some a → (a.accepted = true ↔ k < capacity)
  /-- Nobody waits: a hand-over comes to its end by at most five actions of its own. -/
  neverWaits : ∀ i r, (s.calls i).underWay = [r] → ∃ n ≤ 5, ∃ t,
    s.run? (List.replicate n (.act i)) = some t ∧
      t.calls i = .returned r (decide (s.answers.length < capacity))
  /-- So a thread can hand over any reports, one after the other, and needs nobody else. -/
  handsOver : ∀ i, (s.calls i).isOver = true → ∀ rs : List StatusReport, ∃ es t,
    s.run? es = some t ∧ (∀ e ∈ es, e = .act i ∨ ∃ r ∈ rs, e = .request i (.handOver r)) ∧
      (t.calls i).isOver = true ∧ t.answers = s.answers ++ rs.mapIdx fun k r =>
        ⟨i, r, decide (s.answers.length + k < capacity)⟩
  /-- No report has had a cycle. -/
  untouched : s.cycles = [] ∧ s.publisher.tally = {}
  /-- Once there is a worker and it has nothing left to do, the reports that came first have had
  their cycles. -/
  appliesFirst : (∀ i, (s.calls i).isOver = true) → ∀ es t now, s.run? es = some t →
    OnlyStarts es → t.publisher.worker ≠ .absent → t.publisher.work? now = none →
      s.AppliesFirst capacity t
  /-- Any thread can see to that, whatever the clock shows. -/
  exists_start : ∀ i, (s.calls i).isOver = true → ∀ nows : List Instant,
    nows.length = 3 * min capacity s.answers.length → ∃ t,
      s.run? (Event.startAndWork i nows) = some t ∧
        OnlyStarts (Event.startAndWork (σ := σ) i nows) ∧ t.publisher.running = true ∧
        t.publisher.worker ≠ .absent ∧ ∀ now, t.publisher.work? now = none

theorem keepsFirst (hnew : new? name release capacity related store = .ok s₀)
    (hrun : s₀.run? es = some s) (hes : NeverStarts es) : s.KeepsFirst capacity :=
  have hs := isUnstarted hnew hrun hes
  { inOrder := answeredInOrder hnew hrun
    accepted_iff := hs.accepted_iff
    neverWaits := fun _ _ hr =>
      have ⟨n, hn, t, hacts, hcall, _⟩ := hs.exists_run?_acts hr
      ⟨n, hn.trans (Call.actionsLeft_le _), t, hacts, hcall⟩
    handsOver := fun _ => hs.exists_run?_handOvers
    untouched := ⟨hs.cycles, hs.tally⟩
    appliesFirst := fun hover _ _ _ => appliesFirst hnew hrun hes hover
    exists_start := fun i hover nows hnows =>
      have ⟨t, hrun, ht⟩ := hs.exists_run?_startAndWork hover hnows
      ⟨t, hrun, Event.onlyStarts_startAndWork i nows, ht⟩ }

end SharedPublisher

end OperatorHealth
