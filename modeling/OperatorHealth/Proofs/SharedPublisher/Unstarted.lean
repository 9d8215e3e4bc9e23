import OperatorHealth.Proofs.SharedPublisher.Stopping
import OperatorHealth.Proofs.SharedQueue.Basic

/-!
# A publisher that nobody has started

A publisher can be handed reports before it is started. There is no worker to make room, so nobody
waits for room: the reports that are answered first fill the queue, and all others are refused.
Beside that nothing happens.

## Main definitions

* `SharedPublisher.NeverStarts`: nobody starts or stops the publisher.
* `SharedPublisher.IsUnstarted`: what holds as long as that is so.

## Main results

* `SharedPublisher.isUnstarted`: the queue and the answers at every moment.
* `SharedPublisher.IsUnstarted.exists_run?_acts`: a hand-over comes to its end by itself.
* `SharedPublisher.IsUnstarted.exists_run?_handOvers`: so do any hand-overs, one after another.
-/

namespace OperatorHealth

/-! ### Calls without a worker -/

namespace Call

/-- Calls that can be under way at a publisher that nobody starts or stops. -/
def IsOffering : Call → Prop
  | countIn _ => True
  | checkClosed _ => True
  | checkRunning _ => True
  | offer _ => True
  | countOut _ => True
  | returned .. => True
  | done => True
  | _ => False

/-- The most actions that such a call can have before it. -/
def actionsLeft : Call → Nat
  | countIn _ => 5
  | checkClosed _ => 4
  | checkRunning _ => 3
  | offer _ => 2
  | countOut _ => 1
  | _ => 0

theorem actionsLeft_le (c : Call) : c.actionsLeft ≤ 5 := by
  cases c <;> simp [actionsLeft]

theorem underWay_ne_nil_of_isOffering {c : Call} (hc : c.IsOffering)
    (hunder : c.isOver = false) : c.underWay ≠ [] := by
  cases c with
  | push | startCheck | reserve | launch | place | halt | closeQueue | join => exact hc.elim
  | returned | done => cases hunder
  | _ => exact List.cons_ne_nil _ _

theorem underWay_eq_singleton_iff {c : Call} {r : StatusReport} :
    c.underWay = [r] ↔ c.isOver = false ∧ c.report? = some r := by
  cases hover : c.isOver <;> simp [underWay, hover, Option.toList_eq_singleton_iff]

theorem answers_of_not_isOver {ι : Type} {c : Call} (i : ι) (h : c.isOver = false) :
    c.answers i = [] := by
  cases c with
  | returned => cases h
  | _ => rfl

end Call

namespace Publisher

variable {σ : Type} {p p' : Publisher σ} {c c' : Call}

/-- What an action of a call does at an open publisher without a worker: it goes on, or it is the
one that puts the report into the queue, or the one that gives up. -/
inductive OfferStep (p : Publisher σ) (c c' : Call) (p' : Publisher σ) : Prop
  | goesOn (n : Nat) (hoffering : c'.IsOffering) (hunder : c'.isOver = false)
      (hfull : ∀ r, c' = .countOut r → p.queue.isFull = true) (hp : p' = { p with pending := n })
  | accepted (r : StatusReport) (hc' : c' = .returned r true) (hroom : p.queue.isFull = false)
      (hp : p' = { p with queue := p.queue.append r })
  | refused (n : Nat) (r : StatusReport) (hc : c = .countOut r) (hc' : c' = .returned r false)
      (hp : p' = { p with pending := n })

theorem CallStep.offerStep (h : CallStep p c c' p') (hc : c.IsOffering)
    (hopen : p.queue.closed = false) (hidle : p.running = false) : OfferStep p c c' p' := by
  cases h with
  | countIn r => exact .goesOn _ trivial rfl nofun rfl
  | stillOpen r => exact .goesOn _ trivial rfl nofun rfl
  | notRunning r => exact .goesOn _ trivial rfl nofun rfl
  | enter r hc' hopen' hroom => exact .accepted r rfl hroom rfl
  | refuse r hwhy =>
    refine .goesOn _ trivial rfl (fun _ _ => ?_) rfl
    rcases hwhy with ⟨-, hclosed | hfull⟩ | ⟨-, hclosed⟩
    · cases hopen.symm.trans hclosed
    · exact hfull
    · cases hopen.symm.trans hclosed
  | countOut r => exact .refused _ r rfl rfl rfl
  | closed r hclosed => cases hopen.symm.trans hclosed
  | running r hrunning => cases hidle.symm.trans hrunning
  | startClosed | startOpen | reserved | reserve | launch | crowd => exact hc.elim
  | place | displace | halt | closeQueue | join | notJoinable => exact hc.elim

/-- A call that is not over can go on. -/
theorem exists_callStep_of_isOffering (hc : c.IsOffering) (hunder : c.isOver = false)
    (hopen : p.queue.closed = false) (hidle : p.running = false) :
    ∃ c' p', CallStep p c c' p' ∧ c'.actionsLeft < c.actionsLeft := by
  cases c with
  | countIn r => exact ⟨_, _, .countIn r, by simp [Call.actionsLeft]⟩
  | checkClosed r => exact ⟨_, _, .stillOpen r hopen, by simp [Call.actionsLeft]⟩
  | checkRunning r => exact ⟨_, _, .notRunning r hidle, by simp [Call.actionsLeft]⟩
  | offer r =>
    cases hroom : p.queue.isFull with
    | true => exact ⟨_, _, .refuse r (.inl ⟨rfl, .inr hroom⟩), by simp [Call.actionsLeft]⟩
    | false => exact ⟨_, _, .enter r (.inl rfl) hopen hroom, by simp [Call.actionsLeft]⟩
  | countOut r => exact ⟨_, _, .countOut r, by simp [Call.actionsLeft]⟩
  | returned r accepted => cases hunder
  | done => cases hunder
  | push | startCheck | reserve | launch | place | halt | closeQueue | join => exact hc.elim

end Publisher

namespace SharedPublisher

variable {ι σ : Type} [DecidableEq ι] [ResourceStore σ] {s₀ s s' : SharedPublisher ι σ}
  {e : Event ι σ} {name release : String} {capacity : Nat} {related : List ObjectReference}
  {store : σ} {es : List (Event ι σ)} {i : ι}

/-! ### Before the worker is there -/

omit [DecidableEq ι] [ResourceStore σ] in
theorem exists_new? (name release : String) (hcapacity : 0 < capacity)
    (related : List ObjectReference) (store : σ) :
    ∃ s₀ : SharedPublisher ι σ, new? name release capacity related store = .ok s₀ := by
  simp [new?, Publisher.new?, BoundedQueue.new?, hcapacity, Except.map]

/-- Nobody starts or stops the publisher: all that threads ask for is to hand over reports. -/
def NeverStarts (es : List (Event ι σ)) : Prop :=
  ∀ i q, Event.request i q ∈ es → ∃ r, q = .handOver r

/-- There is no worker and nobody waits for one, the queue holds what was accepted, and the reports
that were answered first are those that were accepted. A report is given up only when the queue is
full. -/
structure IsUnstarted (capacity : Nat) (s : SharedPublisher ι σ) : Prop extends
    s.publisher.IsUnstarted where
  capacity_eq : s.publisher.queue.capacity = capacity
  isOffering : ∀ i, (s.calls i).IsOffering
  isFull : ∀ i r, s.calls i = .countOut r → s.publisher.queue.isFull = true
  size_eq : s.publisher.queue.size = min capacity s.answers.length
  accepted_iff : ∀ k a, s.answers[k]? = some a → (a.accepted = true ↔ k < capacity)
  cycles : s.cycles = []
  tally : s.publisher.tally = {}

namespace IsUnstarted

omit [DecidableEq ι] [ResourceStore σ] in
/-- One more answer. -/
theorem accepted_iff_append (hs : s.IsUnstarted capacity) {a : Answer ι}
    (ha : a.accepted = true ↔ s.answers.length < capacity) (k : Nat) (b : Answer ι)
    (hb : (s.answers ++ [a])[k]? = some b) : b.accepted = true ↔ k < capacity := by
  rcases getElem?_append_singleton_cases hb with ⟨-, hb⟩ | ⟨rfl, rfl⟩
  · exact hs.accepted_iff k b hb
  · exact ha

omit [ResourceStore σ] in
/-- A thread begins to hand over a report. -/
theorem request_handOver (hs : s.IsUnstarted capacity) (i : ι) (r : StatusReport) :
    (s.request i (.handOver r)).IsUnstarted capacity := by
  refine { hs with isOffering := fun j => ?_, isFull := fun j r' hj => ?_ }
  · rcases s.calls_request_cases i j (.handOver r) with h | h <;> rw [h]
    · trivial
    · exact hs.isOffering j
  · rcases s.calls_request_cases i j (.handOver r) with h | h <;> rw [h] at hj
    · cases hj
    · exact hs.isFull j r' hj

omit [ResourceStore σ] in
theorem isOffering_act (hs : s.IsUnstarted capacity) {c : Call} (hc : c.IsOffering)
    (p : Publisher σ) (j : ι) : ((s.act i c p).calls j).IsOffering := by
  rcases s.calls_act_cases i j c p with h | h <;> rw [h]
  · exact hc
  · exact hs.isOffering j

omit [ResourceStore σ] in
/-- Those who give up still find the queue full. -/
theorem isFull_act (hs : s.IsUnstarted capacity) {c : Call} {p : Publisher σ}
    (hc : ∀ r, c = .countOut r → p.queue.isFull = true)
    (hfull : s.publisher.queue.isFull = true → p.queue.isFull = true) (j : ι) (r : StatusReport)
    (hj : (s.act i c p).calls j = .countOut r) : p.queue.isFull = true := by
  rcases s.calls_act_cases i j c p with h | h <;> rw [h] at hj
  · exact hc r hj
  · exact hfull (hs.isFull j r hj)

omit [ResourceStore σ] in
/-- A hand-over goes on. -/
theorem act_goesOn (hs : s.IsUnstarted capacity) (i : ι) {c : Call} (n : Nat)
    (hoffering : c.IsOffering) (hunder : c.isOver = false)
    (hfull : ∀ r, c = .countOut r → s.publisher.queue.isFull = true) :
    (s.act i c { s.publisher with pending := n }).IsUnstarted capacity := by
  have hanswers : (s.act i c { s.publisher with pending := n }).answers = s.answers := by
    rw [act, Call.answers_of_not_isOver i hunder, List.append_nil]
  exact { hs with
    isOffering := hs.isOffering_act hoffering _
    isFull := hs.isFull_act hfull id
    size_eq := hanswers ▸ hs.size_eq
    accepted_iff := hanswers ▸ hs.accepted_iff }

omit [ResourceStore σ] in
/-- The queue takes in a report. -/
theorem act_accepted (hs : s.IsUnstarted capacity) (i : ι) (r : StatusReport)
    (hroom : s.publisher.queue.isFull = false) :
    (s.act i (.returned r true) { s.publisher with
      queue := s.publisher.queue.append r }).IsUnstarted capacity := by
  have hsize := hs.size_eq
  have hlt := BoundedQueue.isFull_eq_false_iff.mp hroom
  rw [hs.capacity_eq, hsize] at hlt
  refine { hs with
    isOffering := hs.isOffering_act (c := .returned r true) trivial _
    isFull := hs.isFull_act nofun fun hfull => by cases hroom.symm.trans hfull
    size_eq := ?_
    accepted_iff := hs.accepted_iff_append (by simp; omega) }
  simp only [act, Call.answers, BoundedQueue.size, BoundedQueue.append, List.length_append,
    List.length_singleton] at hsize ⊢
  omega

omit [ResourceStore σ] in
/-- A thread gives up its report, since the queue is full. -/
theorem act_refused (hs : s.IsUnstarted capacity) {r : StatusReport} (n : Nat)
    (hcall : s.calls i = .countOut r) :
    (s.act i (.returned r false) { s.publisher with pending := n }).IsUnstarted capacity := by
  have hsize := hs.size_eq
  have hge := BoundedQueue.isFull_eq_true_iff.mp (hs.isFull i r hcall)
  rw [hs.capacity_eq, hsize] at hge
  refine { hs with
    isOffering := hs.isOffering_act (c := .returned r false) trivial _
    isFull := hs.isFull_act nofun id
    size_eq := ?_
    accepted_iff := hs.accepted_iff_append (by simp; omega) }
  simp only [act, Call.answers, List.length_append, List.length_singleton]
  omega

end IsUnstarted

theorem Step.isUnstarted (h : s.Step e s') (he : ∀ i q, e = .request i q → ∃ r, q = .handOver r)
    (hs : s.IsUnstarted capacity) : s'.IsUnstarted capacity := by
  cases h with
  | relate | arrange => exact { hs with }
  | work hwork => exact absurd hs.worker hwork.worker_ne_absent
  | request i q hover =>
    obtain ⟨r, rfl⟩ := he i q rfl
    exact hs.request_handOver i r
  | @act i c p hact =>
    cases hact.offerStep (hs.isOffering i) hs.isOpen hs.idle with
    | goesOn n hoffering hunder hfull hp => exact hp ▸ hs.act_goesOn i n hoffering hunder hfull
    | accepted r hc hroom hp => exact hc ▸ hp ▸ hs.act_accepted i r hroom
    | refused n r hcall hc hp => exact hc ▸ hp ▸ hs.act_refused n hcall

theorem isUnstarted (hnew : new? name release capacity related store = .ok s₀)
    (hrun : s₀.run? es = some s) (hes : NeverStarts es) : s.IsUnstarted capacity := by
  refine run?_induction hrun ?_ fun e he t t' h => h.isUnstarted fun i q hq => hes i q (hq ▸ he)
  obtain ⟨queue, hitems, hopen, rfl, rfl⟩ := eq_of_new? hnew
  exact { idle := rfl, worker := rfl, place := rfl, isOpen := hopen, live := rfl, capacity_eq := rfl
          isOffering := fun _ => trivial, isFull := nofun
          size_eq := by simp [BoundedQueue.size, hitems], accepted_iff := by simp
          cycles := rfl, tally := rfl }

/-! ### Nobody waits -/

/-- A hand-over comes to its end by its own actions. -/
theorem IsUnstarted.exists_run?_acts (hs : s.IsUnstarted capacity) {r : StatusReport}
    (hr : (s.calls i).underWay = [r]) :
    ∃ n ≤ (s.calls i).actionsLeft, ∃ t, s.run? (List.replicate n (.act i)) = some t ∧
      t.calls i = .returned r (decide (s.answers.length < capacity)) ∧
      t.answers = s.answers ++ [⟨i, r, decide (s.answers.length < capacity)⟩] ∧
      t.IsUnstarted capacity := by
  induction hleft : (s.calls i).actionsLeft using Nat.strong_induction_on generalizing s with
  | _ n ih =>
    subst hleft
    obtain ⟨hunder, hreport⟩ := Call.underWay_eq_singleton_iff.mp hr
    obtain ⟨c, p, hact, hless⟩ :=
      Publisher.exists_callStep_of_isOffering (hs.isOffering i) hunder hs.isOpen hs.idle
    have hstep : s.Step (.act i) (s.act i c p) := .act i hact
    have hnext := hstep.isUnstarted nofun hs
    have hcall := s.calls_act i c p
    replace hreport : c.report? = some r := hact.report?_eq.trans hreport
    cases hover : c.isOver with
    | true =>
      obtain ⟨accepted, rfl⟩ := Call.eq_returned_of_isOver hover hreport
      have hanswers : (s.act i (.returned r accepted) p).answers =
          s.answers ++ [⟨i, r, accepted⟩] := rfl
      have hlast := hnext.accepted_iff s.answers.length ⟨i, r, accepted⟩ (by simp [hanswers])
      obtain rfl : accepted = decide (s.answers.length < capacity) := by
        rw [Bool.eq_iff_iff, decide_eq_true_iff]
        exact hlast
      exact ⟨1, by omega, _, run?_singleton hstep hs.live, hcall, hanswers, hnext⟩
    | false =>
      have hanswers : (s.act i c p).answers = s.answers := by
        rw [act, Call.answers_of_not_isOver i hover, List.append_nil]
      obtain ⟨n, hn, t, hrun, hresult⟩ := ih c.actionsLeft hless hnext
        (by rw [hcall]; exact Call.underWay_eq_singleton_iff.mpr ⟨hover, hreport⟩)
        (congrArg _ hcall)
      rw [hanswers] at hresult
      exact ⟨n + 1, by omega, t, run?_append (run?_singleton hstep hs.live) hrun, hresult⟩

/-- One thread hands over reports, one after the other, and needs nobody else. -/
theorem IsUnstarted.exists_run?_handOvers (hs : s.IsUnstarted capacity)
    (hover : (s.calls i).isOver = true) (rs : List StatusReport) :
    ∃ es t, s.run? es = some t ∧
      (∀ e ∈ es, e = .act i ∨ ∃ r ∈ rs, e = .request i (.handOver r)) ∧
      (t.calls i).isOver = true ∧ t.answers = s.answers ++ rs.mapIdx fun k r =>
        ⟨i, r, decide (s.answers.length + k < capacity)⟩ := by
  induction rs generalizing s with
  | nil => exact ⟨[], s, rfl, nofun, hover, (List.append_nil _).symm⟩
  | cons r rs ih =>
    have hstep : s.Step (.request i (.handOver r)) (s.request i (.handOver r)) :=
      .request i _ hover
    have hcall := s.calls_request i (.handOver r)
    have hrequested := hstep.isUnstarted (fun j q h => ⟨r, by cases h; rfl⟩) hs
    obtain ⟨n, -, t, hrun, hreturned, hanswers, ht⟩ :=
      hrequested.exists_run?_acts (i := i) (r := r) (by rw [hcall]; rfl)
    obtain ⟨es, u, hrest, hes, hover', hanswers'⟩ := ih ht (by rw [hreturned]; rfl)
    refine ⟨.request i (.handOver r) :: (List.replicate n (.act i) ++ es), u, ?_, ?_, hover', ?_⟩
    · exact run?_append (run?_singleton hstep hs.live) (run?_append hrun hrest)
    · intro e he
      simp only [List.mem_cons, List.mem_append, List.mem_replicate] at he
      rcases he with rfl | ⟨-, rfl⟩ | he
      · exact .inr ⟨r, List.mem_cons_self, rfl⟩
      · exact .inl rfl
      · exact (hes e he).imp_right fun ⟨r', hr', h⟩ => ⟨r', List.mem_cons_of_mem _ hr', h⟩
    · have hlength : t.answers.length = s.answers.length + 1 := by
        rw [hanswers, List.length_append]
        rfl
      simp only [hanswers', hlength, Nat.add_assoc, Nat.add_comm 1]
      rw [hanswers, List.append_assoc, List.mapIdx_cons]
      rfl

/-! ### The store -/

/-- The store is as it was unless something outside has rearranged it. -/
theorem store_eq_of_neverStarts (hnew : new? name release capacity related store = .ok s₀)
    (hrun : s₀.run? es = some s) (hes : NeverStarts es) (harrange : ∀ f, Event.arrange f ∉ es) :
    s.publisher.store = store := by
  have hinit : s₀.IsUnstarted capacity :=
    isUnstarted hnew (show s₀.run? [] = some s₀ from rfl) (by simp [NeverStarts])
  refine (run?_induction (P := fun s => s.IsUnstarted capacity ∧ s.publisher.store = store) hrun
    ⟨hinit, ?_⟩ fun e he t t' h ht => ⟨?_, ?_⟩).2
  · obtain ⟨queue, -, -, -, rfl⟩ := eq_of_new? hnew
    rfl
  · exact h.isUnstarted (fun i q hq => hes i q (hq ▸ he)) ht.1
  · rcases h.books with ⟨-, -, hstore⟩ | ⟨f, rfl, -⟩ | ⟨now, r, -, hworker, -⟩
    · exact hstore.trans ht.2
    · exact absurd he (harrange f)
    · cases ht.1.worker.symm.trans hworker

end SharedPublisher

end OperatorHealth
