import Mathlib.Logic.Function.Basic
import OperatorHealth.Proofs.Run
import OperatorHealth.Queue

/-!
# A queue shared by threads

Any number of threads use one queue, each with one call at a time. A thread begins its call in one
event, and in a later one the queue serves it: it does what was asked, all at once, and the thread
has its reply. In between the thread may have to wait, and anything may happen to the queue. A
list of such events is an interleaving, and every interleaving is such a list. An event that cannot
happen, because a call is still under way or has to wait, gives `none`.

Beside the queue and the calls, the state keeps the answers that threads have got, in order. Nothing
reads this record back.

## Main definitions

* `QueueRequest`, `QueueReply`: what threads ask for, and how their calls end.
* `BoundedQueue.serve?`, `BoundedQueue.Serves`: serving a call, as a function and by rules.
* `SharedQueue`, `SharedQueue.step?`, `SharedQueue.run?`: the queue, the calls under way and the
  answers, and what happens to them.

## Main results

* `BoundedQueue.serve?_eq_some_iff`, `BoundedQueue.serve?_eq_none_iff`: the rules, and which calls
  have to wait.
* `SharedQueue.step?_act_eq_some_iff`: how a call under way is answered.
* `SharedQueue.run?_induction`: what beginning and answering calls keeps, a run keeps.
* `SharedQueue.exists_run?_of_serve?`: what two threads do at the same time is a run.
-/

namespace OperatorHealth

/-! ### Calls -/

/-- What a thread asks of a queue. -/
inductive QueueRequest (α : Type)
  /-- Put an item in, waiting for room. -/
  | push (item : α)
  /-- Put an item in if there is room right now. -/
  | offer (item : α)
  /-- Take the oldest item out, waiting for one. -/
  | pop
  | close
  deriving DecidableEq, Repr

/-- How a call at a queue ends. -/
inductive QueueReply (α : Type)
  /-- The item went in. -/
  | entered
  /-- The item did not go in. -/
  | refused
  /-- An item came out. -/
  | taken (item : α)
  /-- No item came out. -/
  | exhausted
  | closed
  deriving DecidableEq, Repr

/-- The item that a request brings. -/
def QueueRequest.item? {α : Type} : QueueRequest α → Option α
  | push x => some x
  | offer x => some x
  | _ => none

/-- A request that brings an item is none that brings no item. -/
theorem QueueRequest.ne_of_item? {α : Type} {r r' : QueueRequest α} {x : α}
    (h : r.item? = some x) (h' : r'.item? = none) : r ≠ r' := by
  rintro rfl
  rw [h] at h'
  cases h'

/-- The item that has gone in after a request, if the reply says so. -/
def QueueRequest.entered? {α : Type} (r : QueueRequest α) : QueueReply α → Option α
  | .entered => r.item?
  | _ => none

namespace QueueReply

variable {α : Type}

/-- The reply that says whether an item went in. -/
def ofEntry (accepted : Bool) : QueueReply α := if accepted then entered else refused

/-- The reply that says which item came out. -/
def ofItem : Option α → QueueReply α
  | some x => taken x
  | none => exhausted

/-- The item that came out. -/
def item? : QueueReply α → Option α
  | taken x => some x
  | _ => none

end QueueReply

namespace BoundedQueue

variable {α : Type} {q q' : BoundedQueue α} {r : QueueRequest α} {reply : QueueReply α}

/-- How a call ends that the queue serves now, and the queue after it. -/
def serve? (q : BoundedQueue α) : QueueRequest α → Option (QueueReply α × BoundedQueue α)
  | .push x => (q.push? x).map fun (accepted, q) => (.ofEntry accepted, q)
  | .offer x => some (.ofEntry (q.offer x).1, (q.offer x).2)
  | .pop => q.pop?.map fun (item, q) => (.ofItem item, q)
  | .close => some (.closed, q.close)

/-- A call has to wait: it pushes to a queue that is open and full, or pops from one that is open
and empty. -/
def Blocks (q : BoundedQueue α) (r : QueueRequest α) : Prop :=
  q.closed = false ∧ ((∃ x, r = .push x) ∧ q.capacity ≤ q.size ∨ r = .pop ∧ q.items = [])

/-- The calls that a queue serves, how they end, and the queue after them. -/
inductive Serves (q : BoundedQueue α) : QueueRequest α → QueueReply α → BoundedQueue α → Prop
  | enter {r : QueueRequest α} (x : α) (hr : r.item? = some x) (hopen : q.closed = false)
      (hroom : q.size < q.capacity) : Serves q r .entered (q.append x)
  | refuse {r : QueueRequest α} (x : α) (hr : r.item? = some x)
      (hwhy : q.closed = true ∨ r = .offer x ∧ q.capacity ≤ q.size) : Serves q r .refused q
  | take (x : α) (rest : List α) (hitems : q.items = x :: rest) :
      Serves q .pop (.taken x) { q with items := rest }
  | exhaust (hitems : q.items = []) (hclosed : q.closed = true) : Serves q .pop .exhausted q
  | close : Serves q .close .closed q.close

/-! ### Single calls -/

theorem isFull_eq_true_iff : q.isFull = true ↔ q.capacity ≤ q.size := decide_eq_true_iff

theorem isFull_eq_false_iff : q.isFull = false ↔ q.size < q.capacity := by
  rw [isFull, decide_eq_false_iff_not, Nat.not_le]

private theorem serves_of_serve? (h : q.serve? r = some (reply, q')) : Serves q r reply q' := by
  cases r with
  | push x =>
    cases hclosed : q.closed with
    | true =>
      simp only [serve?, push?, hclosed, if_true, Option.map_some] at h
      cases h
      exact .refuse x rfl (.inl hclosed)
    | false =>
      cases hfull : q.isFull with
      | true => simp [serve?, push?, hclosed, hfull] at h
      | false =>
        simp only [serve?, push?, hclosed, hfull, Bool.false_eq_true, if_false,
          Option.map_some] at h
        cases h
        exact .enter x rfl hclosed (isFull_eq_false_iff.mp hfull)
  | offer x =>
    by_cases hwhy : (q.closed || q.isFull) = true
    · simp only [serve?, offer, hwhy, if_true] at h
      cases h
      rw [Bool.or_eq_true, isFull_eq_true_iff] at hwhy
      exact .refuse x rfl (hwhy.imp_right fun hfull => ⟨rfl, hfull⟩)
    · simp only [serve?, offer, hwhy, Bool.false_eq_true, if_false] at h
      cases h
      rw [Bool.not_eq_true, Bool.or_eq_false_iff, isFull_eq_false_iff] at hwhy
      exact .enter x rfl hwhy.1 hwhy.2
  | pop =>
    cases hitems : q.items with
    | cons x rest =>
      simp only [serve?, pop?, hitems, Option.map_some] at h
      cases h
      exact .take x rest hitems
    | nil =>
      cases hclosed : q.closed with
      | true =>
        simp only [serve?, pop?, hitems, hclosed, if_true, Option.map_some] at h
        cases h
        exact .exhaust hitems hclosed
      | false => simp [serve?, pop?, hitems, hclosed] at h
  | close =>
    cases h
    exact .close

/-- The rules say how calls are served. -/
theorem serve?_eq_some_iff : q.serve? r = some (reply, q') ↔ Serves q r reply q' := by
  refine ⟨serves_of_serve?, fun h => ?_⟩
  cases h with
  | enter x hr hopen hroom =>
    have hfull := isFull_eq_false_iff.mpr hroom
    cases r with
    | push y => cases hr; simp [serve?, push?, hopen, hfull, QueueReply.ofEntry]
    | offer y => cases hr; simp [serve?, offer, hopen, hfull, QueueReply.ofEntry]
    | pop => cases hr
    | close => cases hr
  | refuse x hr hwhy =>
    rcases hwhy with hclosed | ⟨rfl, hfull⟩
    · cases r with
      | push y => simp [serve?, push?, hclosed, QueueReply.ofEntry]
      | offer y => simp [serve?, offer, hclosed, QueueReply.ofEntry]
      | pop => cases hr
      | close => cases hr
    · simp [serve?, offer, isFull_eq_true_iff.mpr hfull, QueueReply.ofEntry]
  | take x rest hitems => simp [serve?, pop?, hitems, QueueReply.ofItem]
  | exhaust hitems hclosed => simp [serve?, pop?, hitems, hclosed, QueueReply.ofItem]
  | close => rfl

/-- The calls that are not served are those that have to wait. -/
theorem serve?_eq_none_iff : q.serve? r = none ↔ q.Blocks r := by
  cases r with
  | push x =>
    cases hclosed : q.closed <;> cases hfull : q.isFull <;>
      simp [serve?, push?, Blocks, hclosed, hfull, ← isFull_eq_true_iff]
  | offer x => simp [serve?, Blocks]
  | pop =>
    cases hitems : q.items <;> cases hclosed : q.closed <;>
      simp [serve?, pop?, Blocks, hclosed, hitems]
  | close => simp [serve?, Blocks]

theorem serve?_push_of {x : α} {accepted : Bool} (h : q.push? x = some (accepted, q')) :
    q.serve? (.push x) = some (.ofEntry accepted, q') := by
  simp only [serve?, h, Option.map_some]

theorem serve?_pop_of {item : Option α} (h : q.pop? = some (item, q')) :
    q.serve? .pop = some (.ofItem item, q') := by
  simp only [serve?, h, Option.map_some]

/-! ### What serving a call changes -/

theorem Serves.capacity_eq (h : q.Serves r reply q') : q'.capacity = q.capacity := by
  cases h <;> rfl

/-- A queue is never filled beyond its capacity. -/
theorem Serves.size_le (h : q.Serves r reply q') (hq : q.size ≤ q.capacity) :
    q'.size ≤ q'.capacity := by
  cases h with
  | enter x hr hopen hroom =>
    simp only [append, size, List.length_append, List.length_singleton]
    exact hroom
  | refuse => exact hq
  | take x rest hitems =>
    simp only [size, hitems, List.length_cons] at hq
    exact Nat.le_of_succ_le hq
  | exhaust => exact hq
  | close => exact hq

/-- What was in the queue and what has gone in is what has come out and what is in the queue. -/
theorem Serves.items_append (h : q.Serves r reply q') :
    q.items ++ (r.entered? reply).toList = reply.item?.toList ++ q'.items := by
  cases h with
  | enter x hr => simp only [QueueRequest.entered?, hr, QueueReply.item?, append]; rfl
  | refuse => exact List.append_nil _
  | take x rest hitems => rw [hitems]; exact List.append_nil _
  | exhaust => exact List.append_nil _
  | close => exact List.append_nil _

/-- Nothing goes into a closed queue. -/
theorem Serves.entered?_eq_none (h : q.Serves r reply q') (hclosed : q.closed = true) :
    r.entered? reply = none := by
  cases h with
  | enter x hr hopen => rw [hclosed] at hopen; cases hopen
  | refuse => rfl
  | take => rfl
  | exhaust => rfl
  | close => rfl

/-- A queue is closed after a call if it was before, or if this was the call. -/
theorem Serves.closed_iff (h : q.Serves r reply q') :
    q'.closed = true ↔ q.closed = true ∨ r = .close := by
  cases h with
  | enter x hr => exact (or_iff_left (QueueRequest.ne_of_item? hr rfl)).symm
  | refuse x hr => exact (or_iff_left (QueueRequest.ne_of_item? hr rfl)).symm
  | take => exact (or_iff_left nofun).symm
  | exhaust => exact (or_iff_left nofun).symm
  | close => exact iff_of_true rfl (.inr rfl)

/-- Whoever gets nothing out leaves a closed and empty queue. -/
theorem Serves.of_exhausted (h : q.Serves r .exhausted q') :
    q'.closed = true ∧ q'.items = [] := by
  cases h with
  | exhaust hitems hclosed => exact ⟨hclosed, hitems⟩

end BoundedQueue

/-! ### Threads -/

/-- The end of a call of a thread. -/
structure QueueAnswer (ι α : Type) where
  thread : ι
  request : QueueRequest α
  reply : QueueReply α
  deriving DecidableEq

/-- A queue with the calls that threads are in, and the answers that they have got, the oldest
first. -/
structure SharedQueue (ι α : Type) where
  queue : BoundedQueue α
  calls : ι → Option (QueueRequest α) := fun _ => none
  answers : List (QueueAnswer ι α) := []

namespace SharedQueue

variable {ι α : Type}

/-- A new queue, before any thread has used it. -/
def new? (capacity : Nat) : Except CapacityError (SharedQueue ι α) :=
  (BoundedQueue.new? capacity).map fun queue => { queue }

/-- What can happen. -/
inductive Event (ι α : Type)
  /-- A thread begins a call. -/
  | call (thread : ι) (request : QueueRequest α)
  /-- The call of a thread is served. -/
  | act (thread : ι)

/-- The items that went in, in the order of the answers. -/
def accepted (s : SharedQueue ι α) : List α :=
  s.answers.filterMap fun a => a.request.entered? a.reply

/-- The items that came out, in the order of the answers. -/
def taken (s : SharedQueue ι α) : List α := s.answers.filterMap fun a => a.reply.item?

section Events

variable [DecidableEq ι]

/-- The call `r` of thread `i` has ended with a reply, and the queue is `q` now. -/
def answer (s : SharedQueue ι α) (i : ι) (r : QueueRequest α) (reply : QueueReply α)
    (q : BoundedQueue α) : SharedQueue ι α where
  queue := q
  calls := Function.update s.calls i none
  answers := s.answers ++ [⟨i, r, reply⟩]

/-- The state after an event. -/
def step? (s : SharedQueue ι α) : Event ι α → Option (SharedQueue ι α)
  | .call i r =>
    if (s.calls i).isNone then some { s with calls := Function.update s.calls i (some r) }
    else none
  | .act i => (s.calls i).bind fun r =>
      (s.queue.serve? r).map fun (reply, q) => s.answer i r reply q

/-- The state after a list of events. -/
def run? (s : SharedQueue ι α) (es : List (Event ι α)) : Option (SharedQueue ι α) :=
  es.foldlM step? s

end Events

/-! ### Steps and runs -/

section New

variable {s : SharedQueue ι α}

/-- A queue is made just for a capacity of at least one, and nothing has happened to it yet. -/
theorem new?_eq_ok_iff {capacity : Nat} : new? capacity = .ok s ↔
    ∃ hpos : 0 < capacity, s = { queue := { capacity, capacity_pos := hpos } } := by
  by_cases hpos : 0 < capacity
  · simp [new?, BoundedQueue.new?, hpos, Except.map, eq_comm]
  · simp [new?, BoundedQueue.new?, hpos, Except.map]

end New

variable [DecidableEq ι] {s s' : SharedQueue ι α} {i : ι} {r : QueueRequest α}

/-- The call of a thread is answered as the queue serves it. -/
theorem step?_act_eq_some_iff : s.step? (.act i) = some s' ↔ ∃ r reply q,
    s.calls i = some r ∧ s.queue.Serves r reply q ∧ s' = s.answer i r reply q := by
  simp only [step?, Option.bind_eq_some_iff, Option.map_eq_some_iff, Prod.exists,
    BoundedQueue.serve?_eq_some_iff]
  constructor
  · rintro ⟨r, hr, reply, q, hserves, rfl⟩
    exact ⟨r, reply, q, hr, hserves, rfl⟩
  · rintro ⟨r, reply, q, hr, hserves, rfl⟩
    exact ⟨r, hr, reply, q, hserves, rfl⟩

/-- The call of a thread is not answered just if it has to wait. -/
theorem step?_act_eq_none_iff (hr : s.calls i = some r) :
    s.step? (.act i) = none ↔ s.queue.Blocks r := by
  simp only [step?, hr, Option.bind_some, Option.map_eq_none_iff, BoundedQueue.serve?_eq_none_iff]

/-- What the beginning of a call and its end keep, a run keeps. -/
theorem run?_induction {P : SharedQueue ι α → Prop} {es : List (Event ι α)}
    (hrun : s.run? es = some s') (hs : P s)
    (hcall : ∀ t i r, P t → P { t with calls := Function.update t.calls i (some r) })
    (hanswer : ∀ t i r reply q, P t → t.queue.Serves r reply q → P (t.answer i r reply q)) :
    P s' := by
  refine foldlM_induction hrun hs fun e _ t t' hstep ht => ?_
  cases e with
  | call i r =>
    simp only [step?] at hstep
    split at hstep <;> cases hstep
    exact hcall t i r ht
  | act i =>
    obtain ⟨r, reply, q, -, hserves, rfl⟩ := step?_act_eq_some_iff.mp hstep
    exact hanswer t i r reply q ht hserves

/-! ### Two threads at the same time -/

section TwoThreads

variable {j : ι} {x : α} {accepted : Bool} {item : Option α} {q : BoundedQueue α}

/-- The run of two calls that are served one after the other, although both have begun before. -/
theorem exists_run?_of_serve? {r₁ r₂ : QueueRequest α} {reply₁ reply₂ : QueueReply α}
    {q₁ : BoundedQueue α} (hij : i ≠ j) (hi : s.calls i = none) (hj : s.calls j = none)
    (h₁ : s.queue.serve? r₁ = some (reply₁, q₁)) (h₂ : q₁.serve? r₂ = some (reply₂, q)) :
    ∃ t, s.run? [.call i r₁, .call j r₂, .act i, .act j] = some t ∧ t.queue = q ∧
      t.answers = s.answers ++ [⟨i, r₁, reply₁⟩, ⟨j, r₂, reply₂⟩] := by
  let calls := Function.update (Function.update s.calls i (some r₁)) j (some r₂)
  refine ⟨({ s with calls }.answer i r₁ reply₁ q₁).answer j r₂ reply₂ q, ?_, rfl,
    List.append_assoc ..⟩
  simp only [calls, run?, List.foldlM_cons, List.foldlM_nil, step?, hi, hj, h₁, h₂, answer,
    Function.update_self, Function.update_of_ne hij, Function.update_of_ne hij.symm,
    Option.isNone_none, if_true, Option.bind_eq_bind, Option.bind_some, Option.map_some]
  rfl

/-- A push and a pop at the same time are a run in which one of them is served first. -/
theorem exists_run?_of_pushAndPop? (hij : i ≠ j) (hi : s.calls i = none) (hj : s.calls j = none)
    (h : s.queue.pushAndPop? x = some ((accepted, item), q)) :
    (∃ t, s.run? [.call i (.push x), .call j .pop, .act i, .act j] = some t ∧ t.queue = q ∧
      t.answers = s.answers ++ [⟨i, .push x, .ofEntry accepted⟩, ⟨j, .pop, .ofItem item⟩]) ∨
    (∃ t, s.run? [.call j .pop, .call i (.push x), .act j, .act i] = some t ∧ t.queue = q ∧
      t.answers = s.answers ++ [⟨j, .pop, .ofItem item⟩, ⟨i, .push x, .ofEntry accepted⟩]) := by
  unfold BoundedQueue.pushAndPop? at h
  split at h
  · next accepted' q₁ hpush =>
    obtain ⟨⟨item', q'⟩, hpop, heq⟩ := Option.map_eq_some_iff.mp h
    cases heq
    exact .inl (exists_run?_of_serve? hij hi hj (BoundedQueue.serve?_push_of hpush)
      (BoundedQueue.serve?_pop_of hpop))
  · next hpush =>
    obtain ⟨⟨item', q₁⟩, hpop, hrest⟩ := Option.bind_eq_some_iff.mp h
    obtain ⟨⟨accepted', q'⟩, hpush', heq⟩ := Option.map_eq_some_iff.mp hrest
    cases heq
    exact .inr (exists_run?_of_serve? hij.symm hj hi (BoundedQueue.serve?_pop_of hpop)
      (BoundedQueue.serve?_push_of hpush'))

/-- A push that waits at a full queue while another thread closes it is served after that. -/
theorem exists_run?_of_closeDuringPush? (hij : i ≠ j) (hi : s.calls i = none)
    (hj : s.calls j = none) (h : s.queue.closeDuringPush? x = some (accepted, q)) :
    ∃ t, s.run? [.call j .close, .call i (.push x), .act j, .act i] = some t ∧ t.queue = q ∧
      t.answers = s.answers ++ [⟨j, .close, .closed⟩, ⟨i, .push x, .ofEntry accepted⟩] := by
  unfold BoundedQueue.closeDuringPush? at h
  split at h
  · exact exists_run?_of_serve? hij.symm hj hi rfl (BoundedQueue.serve?_push_of h)
  · cases h

/-- A pop that is under way while another thread closes the queue is served before or after
that. -/
theorem exists_run?_of_closeDuringPop? (hij : i ≠ j) (hi : s.calls i = none)
    (hj : s.calls j = none) (h : s.queue.closeDuringPop? = some (item, q)) :
    (∃ t, s.run? [.call i .pop, .call j .close, .act i, .act j] = some t ∧ t.queue = q ∧
      t.answers = s.answers ++ [⟨i, .pop, .ofItem item⟩, ⟨j, .close, .closed⟩]) ∨
    (∃ t, s.run? [.call j .close, .call i .pop, .act j, .act i] = some t ∧ t.queue = q ∧
      t.answers = s.answers ++ [⟨j, .close, .closed⟩, ⟨i, .pop, .ofItem item⟩]) := by
  unfold BoundedQueue.closeDuringPop? at h
  split at h
  · next item' q₁ hpop =>
    cases h
    exact .inl (exists_run?_of_serve? hij hi hj (BoundedQueue.serve?_pop_of hpop) rfl)
  · exact .inr (exists_run?_of_serve? hij.symm hj hi rfl (BoundedQueue.serve?_pop_of h))

end TwoThreads

end SharedQueue

end OperatorHealth
