import OperatorHealth.Proofs.SharedQueue.Basic

/-!
# First in, first out

However threads push, offer, pop and close, the items come out of a shared queue in the order in
which they went in, each of them once. What went in and has not come out is in the queue. A closed
queue takes nothing more, keeps what it has, and gives it away in order; after that, whoever pops
gets nothing.

The order in which items go in and come out is the order of the answers. It may differ from the
order in which the calls were begun, since a call may have to wait while later ones are served. A
push that waits when another thread closes the queue is answered after that, and is refused.

## Main definitions

* `SharedQueue.IsInOrder`: what holds of a queue and its answers all the time.
* `SharedQueue.AnswersCall`: what the reply to a call depends on.
* `SharedQueue.Drains`: what still changes in a closed queue.

## Main results

* `SharedQueue.IsInOrder.run?`: the order is kept.
* `SharedQueue.drains_of_run?`: a closed queue is only emptied.
* `SharedQueue.first_in_first_out`: both, with the calls that have to wait and the replies to the
  others.
-/

namespace OperatorHealth

namespace SharedQueue

variable {ι α : Type} {capacity : Nat}

/-- The items that went in are those that came out, in the same order, and then those still in the
queue. -/
structure IsInOrder (capacity : Nat) (s : SharedQueue ι α) : Prop where
  capacity_eq : s.queue.capacity = capacity
  size_le : s.queue.size ≤ capacity
  accepted_eq : s.accepted = s.taken ++ s.queue.items
  /-- The queue is closed just if a thread has closed it. -/
  closed_iff : s.queue.closed = true ↔ ∃ a ∈ s.answers, a.request = .close
  /-- Once a thread has got nothing, there is nothing in the queue and nothing enters it. -/
  of_exhausted : ∀ a ∈ s.answers, a.reply = .exhausted →
    s.queue.closed = true ∧ s.queue.items = []

/-- The call `r` of thread `i` is answered, and this leads from `s` to `s'`. -/
structure AnswersCall (s s' : SharedQueue ι α) (i : ι) (r : QueueRequest α)
    (reply : QueueReply α) : Prop where
  answers_eq : s'.answers = s.answers ++ [⟨i, r, reply⟩]
  entered_iff : reply = .entered ↔
    (∃ x, r.item? = some x) ∧ s.queue.closed = false ∧ s.queue.size < s.queue.capacity
  refused_iff : reply = .refused ↔ (∃ x, r.item? = some x) ∧ s.queue.closed = true ∨
    (∃ x, r = .offer x) ∧ s.queue.size = s.queue.capacity
  taken_iff : ∀ x, reply = .taken x ↔ r = .pop ∧ ∃ rest, s.queue.items = x :: rest
  exhausted_iff : reply = .exhausted ↔ r = .pop ∧ s.queue.items = [] ∧ s.queue.closed = true
  of_close : r = .close → s'.queue.closed = true ∧ s'.queue.items = s.queue.items

/-- From `s` to `t`, nothing has gone into a closed queue, and some of its oldest items have come
out. -/
structure Drains (s t : SharedQueue ι α) : Prop where
  closed : t.queue.closed = true
  accepted_eq : t.accepted = s.accepted
  drained : ∃ out, t.taken = s.taken ++ out ∧ s.queue.items = out ++ t.queue.items

theorem isInOrder_of_new? {s : SharedQueue ι α} (h : new? capacity = .ok s) :
    s.IsInOrder capacity := by
  obtain ⟨hpos, rfl⟩ := new?_eq_ok_iff.mp h
  exact ⟨rfl, Nat.zero_le _, rfl, by simp, by simp⟩

theorem Drains.refl {s : SharedQueue ι α} (hclosed : s.queue.closed = true) : s.Drains s :=
  ⟨hclosed, rfl, [], (List.append_nil _).symm, rfl⟩

variable [DecidableEq ι] {s s' t : SharedQueue ι α} {i : ι} {r : QueueRequest α}
  {reply : QueueReply α} {q : BoundedQueue α} {es : List (Event ι α)}

/-! ### The order is kept -/

theorem accepted_answer :
    (s.answer i r reply q).accepted = s.accepted ++ (r.entered? reply).toList := by
  rw [accepted, answer, List.filterMap_append]
  cases h : r.entered? reply <;> simp [accepted, h]

theorem taken_answer : (s.answer i r reply q).taken = s.taken ++ reply.item?.toList := by
  rw [taken, answer, List.filterMap_append]
  cases h : reply.item? <;> simp [taken, h]

/-- An answer keeps the order. -/
theorem IsInOrder.answer (hs : s.IsInOrder capacity) (h : s.queue.Serves r reply q) :
    (s.answer i r reply q).IsInOrder capacity where
  capacity_eq := h.capacity_eq.trans hs.capacity_eq
  size_le := by
    have hsize := h.size_le (hs.capacity_eq.symm ▸ hs.size_le)
    rwa [h.capacity_eq, hs.capacity_eq] at hsize
  accepted_eq := by
    rw [accepted_answer, taken_answer, hs.accepted_eq, List.append_assoc, List.append_assoc,
      h.items_append]
    rfl
  closed_iff := by
    simp only [SharedQueue.answer, h.closed_iff, hs.closed_iff, List.mem_append,
      List.mem_singleton, or_and_right, exists_or, exists_eq_left]
  of_exhausted a ha hreply := by
    rcases List.mem_append.mp ha with ha | ha
    · obtain ⟨hclosed, hitems⟩ := hs.of_exhausted a ha hreply
      have hnothing := h.items_append
      rw [hitems, h.entered?_eq_none hclosed] at hnothing
      exact ⟨h.closed_iff.mpr (.inl hclosed), (List.append_eq_nil_iff.mp hnothing.symm).2⟩
    · cases List.mem_singleton.mp ha
      cases hreply
      exact h.of_exhausted

/-- A run keeps the order. -/
theorem IsInOrder.run? (hs : s.IsInOrder capacity) (hrun : s.run? es = some s') :
    s'.IsInOrder capacity :=
  run?_induction hrun hs (fun _ _ _ h => ⟨h.1, h.2, h.3, h.4, h.5⟩)
    fun _ _ _ _ _ h hserves => h.answer hserves

/-! ### Closed queues -/

/-- An answer of a closed queue takes its oldest item out, or nothing. -/
theorem Drains.answer (h : s.Drains t) (hserves : t.queue.Serves r reply q) :
    s.Drains (t.answer i r reply q) := by
  obtain ⟨out, htaken, hitems⟩ := h.drained
  have hnothing := hserves.entered?_eq_none h.closed
  have hout := hserves.items_append
  rw [hnothing, Option.toList_none, List.append_nil] at hout
  refine ⟨hserves.closed_iff.mpr (.inl h.closed), ?_, out ++ reply.item?.toList, ?_, ?_⟩
  · rw [accepted_answer, h.accepted_eq, hnothing, Option.toList_none, List.append_nil]
  · rw [taken_answer, htaken, List.append_assoc]
  · rw [hitems, hout, List.append_assoc]
    rfl

/-- Nothing enters a closed queue any more, and what is in it comes out in order. -/
theorem drains_of_run? (hclosed : s.queue.closed = true) (hrun : s.run? es = some t) :
    s.Drains t :=
  run?_induction hrun (.refl hclosed) (fun _ _ _ h => ⟨h.1, h.2, h.3⟩)
    fun _ _ _ _ _ h hserves => h.answer hserves

/-! ### Replies -/

/-- What the queue serves is answered by the state that the queue is in. -/
theorem answersCall_answer (hle : s.queue.size ≤ s.queue.capacity)
    (h : s.queue.Serves r reply q) : s.AnswersCall (s.answer i r reply q) i r reply := by
  cases h with
  | enter x hr hopen hroom =>
    have hpop : r ≠ .pop := QueueRequest.ne_of_item? hr rfl
    have hclose : r ≠ .close := QueueRequest.ne_of_item? hr rfl
    exact ⟨rfl, by simp [hr, hopen, hroom], by simp [hopen, Nat.ne_of_lt hroom], by simp [hpop],
      by simp [hpop], by simp [hclose]⟩
  | refuse x hr hwhy =>
    have hpop : r ≠ .pop := QueueRequest.ne_of_item? hr rfl
    have hclose : r ≠ .close := QueueRequest.ne_of_item? hr rfl
    refine ⟨rfl, ?_, ?_, by simp [hpop], by simp [hpop], by simp [hclose]⟩
    · rcases hwhy with hclosed | ⟨-, hfull⟩
      · simp [hclosed]
      · simp [hfull]
    · rcases hwhy with hclosed | ⟨rfl, hfull⟩
      · simp [hr, hclosed]
      · simp [Nat.le_antisymm hle hfull]
  | take x rest hitems =>
    exact ⟨rfl, by simp [QueueRequest.item?], by simp [QueueRequest.item?],
      by simp [hitems], by simp [hitems], by simp⟩
  | exhaust hitems hclosed =>
    exact ⟨rfl, by simp [QueueRequest.item?], by simp [QueueRequest.item?], by simp [hitems],
      by simp [hitems, hclosed], by simp⟩
  | close =>
    exact ⟨rfl, by simp [QueueRequest.item?], by simp [QueueRequest.item?], by simp, by simp,
      fun _ => ⟨rfl, rfl⟩⟩

/-! ### All together -/

/-- Threads use a new queue in any way. What went in is what came out, in the same order, and what
is still there, never more than there is room for. A call has to wait only to push to a full queue
or to pop from an empty one, and only while the queue is open; the reply to any other says what the
queue did. Once it is closed, it is only emptied. -/
theorem first_in_first_out (hpos : 0 < capacity) : ∃ s₀ : SharedQueue ι α,
    new? capacity = .ok s₀ ∧ ∀ es s, s₀.run? es = some s →
      s.IsInOrder capacity ∧
      (∀ i r, s.calls i = some r →
        (s.step? (.act i) = none ↔ s.queue.closed = false ∧
          ((∃ x, r = .push x) ∧ s.queue.size = capacity ∨ r = .pop ∧ s.queue.items = [])) ∧
        ∀ s', s.step? (.act i) = some s' → ∃ reply, s.AnswersCall s' i r reply) ∧
      (s.queue.closed = true → ∀ es' t, s.run? es' = some t → s.Drains t) := by
  obtain ⟨s₀, hnew⟩ : ∃ s₀ : SharedQueue ι α, new? capacity = .ok s₀ :=
    ⟨_, new?_eq_ok_iff.mpr ⟨hpos, rfl⟩⟩
  refine ⟨s₀, hnew, fun es s hrun => ?_⟩
  have hs := (isInOrder_of_new? hnew).run? hrun
  have hcapacity := hs.capacity_eq
  have hle : s.queue.size ≤ s.queue.capacity := hcapacity.symm ▸ hs.size_le
  refine ⟨hs, fun i r hr => ⟨?_, fun s' hstep => ?_⟩, fun hclosed es' t => drains_of_run? hclosed⟩
  · have hfull : s.queue.capacity ≤ s.queue.size ↔ s.queue.size = s.queue.capacity :=
      ⟨Nat.le_antisymm hle, fun heq => Nat.le_of_eq heq.symm⟩
    rw [step?_act_eq_none_iff hr, BoundedQueue.Blocks, hfull, hcapacity]
  · obtain ⟨r', reply, q, hr', hserves, rfl⟩ := step?_act_eq_some_iff.mp hstep
    cases hr.symm.trans hr'
    exact ⟨reply, answersCall_answer hle hserves⟩

/-- One thread waits to push to a full queue, and another closes it: the push is refused, and the
item that was there comes out once. -/
theorem first_in_first_out_push_while_closing : 0 < 1 ∧ ∃ s₀ s t : SharedQueue Bool Nat,
    new? 1 = .ok s₀ ∧
    s₀.run? [.call false (.push 1), .act false, .call false (.push 2), .call true .close,
      .act true] = some s ∧
    s.run? [.act false, .call true .pop, .act true, .call false .pop, .act false] = some t ∧
    s.IsInOrder 1 ∧ s.Drains t ∧
    t.answers = [⟨false, .push 1, .entered⟩, ⟨true, .close, .closed⟩, ⟨false, .push 2, .refused⟩,
      ⟨true, .pop, .taken 1⟩, ⟨false, .pop, .exhausted⟩] := by
  obtain ⟨s₀, hnew, hall⟩ := first_in_first_out (ι := Bool) (α := Nat) (show 0 < 1 by decide)
  cases hnew
  obtain ⟨horder, -, hdrains⟩ := hall [.call false (.push 1), .act false, .call false (.push 2),
    .call true .close, .act true] _ rfl
  have hemptied := hdrains rfl [.act false, .call true .pop, .act true, .call false .pop,
    .act false] _ rfl
  exact ⟨by decide, _, _, _, rfl, rfl, rfl, horder, hemptied, rfl⟩

end SharedQueue

end OperatorHealth
