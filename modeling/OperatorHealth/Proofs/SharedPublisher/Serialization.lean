import OperatorHealth.Proofs.SharedPublisher.Basic
import OperatorHealth.Store.Memory

/-!
# Cycles of a shared publisher happen one after another

However calls and the worker interleave, the reports that were accepted enter the queue in the
order of their answers, and leave it in that order to the worker. So once the worker has drained
the queue, what is stored, and the tally, are those of running the cycles of the accepted reports
one after another, each once. The reports of one thread are among them in the order of its calls.

## Main definitions

* `publishAll`: cycles one after another.
* `Call.underWay`: the report of a call that is not over.

## Main results

* `SharedPublisher.inOrder`: the queue hands on reports in order.
* `SharedPublisher.entered_eq_accepted`: what enters the queue is what is accepted.
* `SharedPublisher.answeredInOrder`: a thread is answered in the order of its calls.
* `SharedPublisher.serialized`: the accepted reports, one after another.
-/

namespace OperatorHealth

/-- The tally and the store after the cycles of reports, one after another, each at a clock
reading. -/
def publishAll {σ : Type} [ResourceStore σ] (name release : String)
    (related : List ObjectReference) (reports : List (Instant × StatusReport)) (start : Tally × σ) :
    Tally × σ :=
  reports.foldl (fun books x => runCycle name release related x.1 x.2 books.1 books.2) start

theorem publishAll_append_singleton {σ : Type} [ResourceStore σ] {name release : String}
    {related : List ObjectReference} (reports : List (Instant × StatusReport)) (now : Instant)
    (r : StatusReport) (start : Tally × σ) :
    publishAll name release related (reports ++ [(now, r)]) start =
      runCycle name release related now r (publishAll name release related reports start).1
        (publishAll name release related reports start).2 := by
  simp [publishAll]

/-- The report that a call still has to hand over. -/
def Call.underWay (c : Call) : List StatusReport := if c.isOver then [] else c.report?.toList

theorem Call.map_report_answers_append_underWay {ι : Type} (i : ι) (c : Call) :
    (c.answers i).map (·.report) ++ c.underWay = c.report?.toList := by
  cases c <;> rfl

theorem Call.underWay_of_isOver {c : Call} (h : c.isOver = true) : c.underWay = [] := by
  simp [underWay, h]

theorem Call.underWay_of_not_isOver {c : Call} (h : c.isOver = false) :
    c.underWay = c.report?.toList := by
  simp [underWay, h]

theorem Request.underWay_call (q : Request) : q.call.underWay = q.reports := by
  cases q <;> rfl

/-- What a call has put into the queue is what it has been told was accepted. -/
theorem Call.map_entered {ι : Type} (i : ι) (c : Call) : c.entered.map (fun r => (i, r)) =
    ((c.answers i).filter (·.accepted)).map fun a => (a.thread, a.report) := by
  cases c with
  | returned r accepted => cases accepted <;> rfl
  | _ => rfl

namespace SharedPublisher

variable {ι σ : Type} [DecidableEq ι]

/-! ### The record after one event -/

theorem entered_act {s : SharedPublisher ι σ} {i : ι} {c : Call} {p : Publisher σ}
    (hact : s.publisher.CallStep (s.calls i) c p) :
    (s.act i c p).entered = s.entered ++ c.entered.map fun r => (i, r) := by
  rw [act, hact.items_eq, List.drop_left]

theorem accepted_act (s : SharedPublisher ι σ) (i : ι) (c : Call) (p : Publisher σ) :
    (s.act i c p).accepted = s.accepted ++ c.entered.map fun r => (i, r) := by
  simp only [accepted, act, List.filter_append, List.map_append, Call.map_entered]

theorem begunBy_request (s : SharedPublisher ι σ) (i j : ι) (q : Request) :
    (s.request j q).begunBy i = s.begunBy i ++ if j = i then q.reports else [] := by
  by_cases hij : j = i <;>
    simp [begunBy, request, hij, List.filter_map, Function.comp_def]

theorem answeredTo_act (s : SharedPublisher ι σ) (i j : ι) (c : Call) (p : Publisher σ) :
    (s.act j c p).answeredTo i =
      s.answeredTo i ++ if j = i then (c.answers j).map (·.report) else [] := by
  cases c <;> by_cases hij : j = i <;> simp [answeredTo, act, Call.answers, hij]

/-- The accepted reports of a thread are among those for which it has an answer. -/
theorem acceptedFrom_sublist (s : SharedPublisher ι σ) (i : ι) :
    (s.acceptedFrom i).Sublist (s.answeredTo i) := by
  rw [acceptedFrom, accepted, answeredTo, List.filter_map, List.map_map]
  exact (List.filter_sublist.filter _).map _

variable [ResourceStore σ] {s₀ s s' : SharedPublisher ι σ} {e : Event ι σ}
  {name release : String} {capacity : Nat} {related : List ObjectReference} {store : σ}
  {es : List (Event ι σ)}

/-! ### The queue hands on reports in order -/

/-- What has entered the queue is, in this order, what cycles were run for, what the worker has in
hand, and what is still queued. -/
def InOrder (s : SharedPublisher ι σ) : Prop :=
  s.entered.map (·.2) = s.processed ++ s.publisher.worker.held ++ s.publisher.queue.items

theorem Step.inOrder (h : s.Step e s') (hs : s.InOrder) : s'.InOrder := by
  unfold InOrder at hs ⊢
  cases h with
  | request i q hover => exact hs
  | relate related => exact hs
  | arrange change => exact hs
  | act i hact =>
    rw [entered_act hact, List.map_append, hs]
    simp [SharedPublisher.act, processed, hact.items_eq, hact.held_eq, Function.comp_def]
  | work hwork =>
    rw [hs, List.append_assoc, hwork.in_order]
    simp [processed]

theorem inOrder (hnew : new? name release capacity related store = .ok s₀)
    (hrun : s₀.run? es = some s) : s.InOrder := by
  refine run?_induction hrun ?_ fun e _ t t' h => h.inOrder
  obtain ⟨queue, hitems, -, -, rfl⟩ := eq_of_new? hnew
  simp [InOrder, processed, hitems]

/-! ### What enters the queue is what is accepted -/

theorem Step.entered_eq_accepted (h : s.Step e s') (hs : s.entered = s.accepted) :
    s'.entered = s'.accepted := by
  cases h with
  | act i hact => rw [entered_act hact, accepted_act, hs]
  | _ => exact hs

/-- What has entered the queue is what was accepted, in the order of the answers. -/
theorem entered_eq_accepted (hnew : new? name release capacity related store = .ok s₀)
    (hrun : s₀.run? es = some s) : s.entered = s.accepted := by
  refine run?_induction (P := fun s => s.entered = s.accepted) hrun ?_
    fun e _ t t' h => h.entered_eq_accepted
  obtain ⟨queue, -, -, -, rfl⟩ := eq_of_new? hnew
  rfl

/-! ### A thread is answered in the order of its calls -/

/-- Every thread has an answer to each hand-over that it has begun, in the order of its calls, but
for the one that is under way. -/
def AnsweredInOrder (s : SharedPublisher ι σ) : Prop :=
  ∀ i, s.answeredTo i ++ (s.calls i).underWay = s.begunBy i

theorem Step.answeredInOrder (h : s.Step e s') (hs : s.AnsweredInOrder) : s'.AnsweredInOrder := by
  intro i
  have hi := hs i
  cases h with
  | relate related => exact hi
  | arrange change => exact hi
  | work hwork => exact hi
  | request j q hover =>
    rw [begunBy_request, ← hi]
    by_cases hij : j = i
    · subst hij
      simp [SharedPublisher.request, answeredTo, Request.underWay_call,
        Call.underWay_of_isOver hover]
    · simp [SharedPublisher.request, answeredTo, Function.update_of_ne (Ne.symm hij), hij]
  | @act j c p hact =>
    rw [answeredTo_act]
    change _ = s.begunBy i
    rw [← hi]
    by_cases hij : j = i
    · subst hij
      have hnext := Call.map_report_answers_append_underWay j c
      rw [hact.report?_eq] at hnext
      simp [SharedPublisher.act, hnext, Call.underWay_of_not_isOver hact.isOver_eq]
    · simp [SharedPublisher.act, Function.update_of_ne (Ne.symm hij), hij]

theorem answeredInOrder (hnew : new? name release capacity related store = .ok s₀)
    (hrun : s₀.run? es = some s) : s.AnsweredInOrder := by
  refine run?_induction hrun ?_ fun e _ t t' h => h.answeredInOrder
  obtain ⟨queue, -, -, -, rfl⟩ := eq_of_new? hnew
  exact fun i => rfl

/-! ### The cycles, one after another -/

/-- The tally and the store are those of the cycles that were run, one after another, by a
publisher that stays the same in all that cycles read. -/
structure IsReplay (name release : String) (related : List ObjectReference) (store : σ)
    (s : SharedPublisher ι σ) : Prop where
  name_eq : s.publisher.name = name
  release_eq : s.publisher.release = release
  related_eq : s.publisher.related = related
  books_eq : (s.publisher.tally, s.publisher.store) =
    publishAll name release related (s.cycles.map fun c => (c.now, c.report)) ({}, store)

theorem Step.isReplay (h : s.Step e s') (hrelate : ∀ rs, e ≠ .relate rs)
    (harrange : ∀ f, e ≠ .arrange f) (hs : s.IsReplay name release related store) :
    s'.IsReplay name release related store := by
  refine ⟨h.name_release_eq.1.trans hs.name_eq, h.name_release_eq.2.trans hs.release_eq,
    (h.related_eq hrelate).trans hs.related_eq, ?_⟩
  rcases h.books with ⟨hcycles, htally, hstore⟩ | ⟨f, rfl, -⟩ | ⟨now, r, -, -, hcycles, hafter⟩
  · rw [hcycles, htally, hstore]
    exact hs.books_eq
  · exact absurd rfl (harrange f)
  · rw [hafter, hcycles, List.map_append, List.map_singleton, Publisher.cycle, hs.name_eq,
      hs.release_eq, hs.related_eq, publishAll_append_singleton, ← hs.books_eq]

theorem isReplay (hnew : new? name release capacity related store = .ok s₀)
    (hrun : s₀.run? es = some s) (hrelate : ∀ rs, Event.relate rs ∉ es)
    (harrange : ∀ f, Event.arrange f ∉ es) : s.IsReplay name release related store := by
  refine run?_induction hrun ?_ fun e he t t' h => h.isReplay
    (fun rs hrs => hrelate rs (hrs ▸ he)) fun f hf => harrange f (hf ▸ he)
  obtain ⟨queue, -, -, -, rfl⟩ := eq_of_new? hnew
  exact ⟨rfl, rfl, rfl, rfl⟩

/-- **Cycles happen one after another.** Threads hand over reports to a new publisher, start it and
stop it in any way, over any store, while its related objects stay the same and nothing else
touches the store. Once the worker has drained the queue, it has run a cycle for each accepted
report, in the order in which they entered the queue, and for no other one, and the tally and the
store are those of running these cycles one after another. Each thread has been answered in the
order of its calls, so its accepted reports are among them in that order. -/
theorem serialized (hnew : new? name release capacity related store = .ok s₀)
    (hrun : s₀.run? es = some s) (hrelate : ∀ rs, Event.relate rs ∉ es)
    (harrange : ∀ f, Event.arrange f ∉ es) (hdrained : s.IsDrained) :
    s.entered = s.accepted ∧
    s.processed = s.accepted.map (·.2) ∧ s.clock.length = s.accepted.length ∧
    (s.publisher.tally, s.publisher.store) =
      publishAll name release related (s.clock.zip (s.accepted.map (·.2))) ({}, store) ∧
    ∀ i, s.answeredTo i <+: s.begunBy i ∧ (s.acceptedFrom i).Sublist (s.begunBy i) := by
  have hprocessed : s.processed = s.accepted.map (·.2) := by
    have horder := inOrder hnew hrun
    rw [InOrder, hdrained.1, hdrained.2, List.append_nil, List.append_nil] at horder
    rw [← horder, entered_eq_accepted hnew hrun]
  refine ⟨entered_eq_accepted hnew hrun, hprocessed, ?_, ?_, fun i => ?_⟩
  · rw [← List.length_map (fun x : ι × StatusReport => x.2), ← hprocessed, clock, processed,
      List.length_map, List.length_map]
  · rw [(isReplay hnew hrun hrelate harrange).books_eq, ← hprocessed, clock, processed,
      List.zip_map']
  · have hi := answeredInOrder hnew hrun i
    have hpre : s.answeredTo i <+: s.begunBy i := ⟨_, hi⟩
    exact ⟨hpre, (s.acceptedFrom_sublist i).trans hpre.sublist⟩

/-- A store that refuses to create a resource, once. -/
def busyStore : MemoryStore := MemoryStore.refuseNext {} .create "busy"

/-- A run of two threads at a queue for one report. While there is no worker they both try to get a
report in, and one has to give up. That one hands over another report when the worker has made
room. -/
def contendedRun : List (Event Bool MemoryStore) :=
  [.request true (.handOver ⟨[], true⟩), .request false (.handOver ⟨[], false⟩),
    .act false, .act true, .act false, .act true, .act false, .act true,
    .act false, .act true, .act true] ++
  Event.wholeCall false .start 4 ++ List.replicate 3 (.work (.ofSeconds 1)) ++
  Event.wholeCall true (.handOver ⟨[upgradeAllowed], true⟩) 4 ++
  List.replicate 3 (.work (.ofSeconds 2))

theorem serialized_contendedRun : ∃ s₀ s : SharedPublisher Bool MemoryStore,
    new? "network" "4.1.0" 1 [] busyStore = .ok s₀ ∧ s₀.run? contendedRun = some s ∧ s.IsDrained ∧
    s.accepted = [(false, ⟨[], false⟩), (true, ⟨[upgradeAllowed], true⟩)] ∧
    s.publisher.tally = { published := 1, failed := 1 } ∧
    (s.publisher.tally, s.publisher.store) =
      publishAll "network" "4.1.0" [] (s.clock.zip (s.accepted.map (·.2))) ({}, busyStore) := by
  obtain ⟨s₀, hnew, s, hrun, hdrained, haccepted, htally⟩ : ∃ s₀ : SharedPublisher Bool MemoryStore,
      new? "network" "4.1.0" 1 [] busyStore = .ok s₀ ∧
      ∃ s, s₀.run? contendedRun = some s ∧ s.IsDrained ∧
        s.accepted = [(false, ⟨[], false⟩), (true, ⟨[upgradeAllowed], true⟩)] ∧
        s.publisher.tally = { published := 1, failed := 1 } :=
    ⟨_, rfl, _, rfl, ⟨rfl, rfl⟩, rfl, rfl⟩
  obtain ⟨-, -, -, hbooks, -⟩ := serialized hnew hrun (by simp [contendedRun, Event.wholeCall])
    (by simp [contendedRun, Event.wholeCall]) hdrained
  exact ⟨s₀, s, hnew, hrun, hdrained, haccepted, htally, hbooks⟩

end SharedPublisher

end OperatorHealth
