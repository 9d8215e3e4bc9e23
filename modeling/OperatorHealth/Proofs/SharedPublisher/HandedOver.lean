import OperatorHealth.Proofs.Publication.Orderly
import OperatorHealth.Proofs.SharedPublisher.InMemory
import OperatorHealth.Proofs.SharedPublisher.Serialization

/-!
# Publishers that are handed orderly reports

A cycle is run only for a report that some thread has begun to hand over. So where threads hand over
orderly reports only, every cycle of a publisher over a store in memory keeps the times of
transition; and as long as nothing but failures comes from outside, a word on availability that is
stored is upheld.

## Main definitions

* `SharedPublisher.OnlyHandsOver`, `SharedPublisher.OnlyOrderly`: threads hand over reports of a
  kind, or orderly reports, only.

## Main results

* `SharedPublisher.mem_of_mem_reports`: reports in the hands of the publisher were handed over.
* `SharedPublisher.cycles_induction`: what every cycle keeps, a run keeps.
* `SharedPublisher.keepsTransitions_of_mem_cycles`: the times of transition in each cycle.
* `SharedPublisher.upholdsAvailability_of_mem_cycles`, `SharedPublisher.upholdsAvailability`: the
  word on availability in each cycle, and in a later state.
-/

namespace OperatorHealth

namespace SharedPublisher

/-! ### Reports that were handed over -/

section HandedOver

variable {ι σ : Type} [DecidableEq ι] [ResourceStore σ] {s₀ s s' : SharedPublisher ι σ}
  {e : Event ι σ} {name release : String} {capacity : Nat} {related : List ObjectReference}
  {store : σ} {es : List (Event ι σ)} {r : StatusReport}

/-- A hand-over is begun by a request. -/
theorem Step.begun_eq (h : s.Step e s') :
    s'.begun = s.begun ∨ ∃ i r, e = .request i (.handOver r) ∧ s'.begun = s.begun ++ [(i, r)] := by
  cases h with
  | request i q hover =>
    cases q with
    | handOver r => exact .inr ⟨i, r, rfl, rfl⟩
    | start => exact .inl (List.append_nil _)
    | stop => exact .inl (List.append_nil _)
  | _ => exact .inl rfl

theorem mem_of_mem_begun (hnew : new? name release capacity related store = .ok s₀)
    (hrun : s₀.run? es = some s) {i : ι} (h : (i, r) ∈ s.begun) :
    Event.request i (.handOver r) ∈ es := by
  refine run?_induction (P := fun s => (i, r) ∈ s.begun → Event.request i (.handOver r) ∈ es) hrun
    ?_ (fun e he t t' hstep ht hmem => ?_) h
  · obtain ⟨queue, -, -, -, rfl⟩ := eq_of_new? hnew
    simp
  · rcases hstep.begun_eq with hbegun | ⟨j, q, rfl, hbegun⟩ <;> rw [hbegun] at hmem
    · exact ht hmem
    · rcases List.mem_append.mp hmem with hmem | hmem
      · exact ht hmem
      · cases List.mem_singleton.mp hmem
        exact he

/-- A report of which the publisher has run a cycle, or which it has in hand or queued, was handed
over. -/
theorem mem_of_mem_reports (hnew : new? name release capacity related store = .ok s₀)
    (hrun : s₀.run? es = some s)
    (h : r ∈ s.processed ++ s.publisher.worker.held ++ s.publisher.queue.items) :
    ∃ i, Event.request i (.handOver r) ∈ es := by
  rw [← inOrder hnew hrun, entered_eq_accepted hnew hrun] at h
  obtain ⟨⟨i, r'⟩, hmem, rfl⟩ := List.mem_map.mp h
  have hfrom : r' ∈ s.acceptedFrom i :=
    List.mem_map.mpr ⟨(i, r'), List.mem_filter.mpr ⟨hmem, by simp⟩, rfl⟩
  have hbegun : r' ∈ s.begunBy i := by
    rw [← answeredInOrder hnew hrun i]
    exact List.mem_append_left _ ((s.acceptedFrom_sublist i).subset hfrom)
  obtain ⟨⟨j, r⟩, hj, rfl⟩ := List.mem_map.mp hbegun
  exact ⟨j, mem_of_mem_begun hnew hrun (List.mem_filter.mp hj).1⟩

/-- Threads hand over reports with the property `Q` only. -/
def OnlyHandsOver (Q : StatusReport → Prop) (es : List (Event ι σ)) : Prop :=
  ∀ i r, Event.request i (.handOver r) ∈ es → Q r

/-- Threads hand over orderly reports only. -/
def OnlyOrderly (es : List (Event ι σ)) : Prop :=
  ∀ i r, Event.request i (.handOver r) ∈ es → r.IsOrderly

omit [DecidableEq ι] [ResourceStore σ] in
theorem OnlyHandsOver.append {Q : StatusReport → Prop} {es' : List (Event ι σ)}
    (h : OnlyHandsOver Q es) (h' : OnlyHandsOver Q es') : OnlyHandsOver Q (es ++ es') := by
  intro i r hr
  exact (List.mem_append.mp hr).elim (h i r) (h' i r)

omit [DecidableEq ι] [ResourceStore σ] in
theorem OnlyOrderly.append {es' : List (Event ι σ)} (h : OnlyOrderly es) (h' : OnlyOrderly es') :
    OnlyOrderly (es ++ es') :=
  OnlyHandsOver.append h h'

theorem isOrderly_of_mem_cycles (hnew : new? name release capacity related store = .ok s₀)
    (hrun : s₀.run? es = some s) (hes : OnlyOrderly es) :
    ∀ c ∈ s.cycles, c.report.IsOrderly := by
  intro c hc
  obtain ⟨i, hi⟩ := mem_of_mem_reports hnew hrun
    (List.mem_append_left _ (List.mem_append_left _ (List.mem_map_of_mem hc)))
  exact hes i _ hi

/-- **What every cycle keeps, a run keeps.** Whatever holds of the store at first and is kept by the
cycle of every report that is handed over, and by what others do to the store, holds of it at the
end, and what these cycles come to holds of all cycles. -/
theorem cycles_induction {P : σ → Prop} {C : Cycle σ → Prop} {Q : StatusReport → Prop}
    (hnew : new? name release capacity related store = .ok s₀) (hrun : s₀.run? es = some s)
    (hes : OnlyHandsOver Q es) (hinit : P store)
    (harrange : ∀ f, Event.arrange f ∈ es → ∀ t, P t → P (f t))
    (hcycle : ∀ (p : Publisher σ) now r, p.name = name → p.release = release → Q r → P p.store →
      P (p.cycle now r).after.2 ∧ C (p.cycle now r)) :
    P s.publisher.store ∧ ∀ c ∈ s.cycles, C c := by
  refine foldlM_induction_of_split (P := fun t : SharedPublisher ι σ =>
    P t.publisher.store ∧ ∀ c ∈ t.cycles, C c) hrun ?_ fun before e after t t' hsplit hbefore hstep
      ht => ?_
  · obtain ⟨queue, -, -, -, rfl⟩ := eq_of_new? hnew
    exact ⟨hinit, by simp⟩
  · obtain ⟨hstore, hcycles⟩ := ht
    have hrule := (step?_eq_some_iff.mp hstep).2
    rcases hrule.books with ⟨hsame, -, hkept⟩ | ⟨f, rfl, hsame, -, hchanged⟩ |
      ⟨now, r, -, hworker, hmore, hafter⟩
    · rw [hsame, hkept]
      exact ⟨hstore, hcycles⟩
    · rw [hsame, hchanged]
      exact ⟨harrange f (by rw [hsplit]; simp) _ hstore, hcycles⟩
    · -- the report in hand was handed over on the way here
      obtain ⟨i, hi⟩ := mem_of_mem_reports (r := r) hnew hbefore (by simp [hworker])
      have hr : Q r := hes i r (hsplit ▸ List.mem_append_left _ hi)
      obtain ⟨hname, hrelease⟩ := name_release_eq hnew hbefore
      obtain ⟨hnext, hdone⟩ := hcycle t.publisher now r hname hrelease hr hstore
      have hstore' : t'.publisher.store = (t.publisher.cycle now r).after.2 :=
        congrArg Prod.snd hafter
      rw [hmore, hstore']
      refine ⟨hnext, fun c hc => ?_⟩
      rcases List.mem_append.mp hc with hc | hc
      · exact hcycles c hc
      · rw [List.mem_singleton.mp hc]
        exact hdone

end HandedOver

/-! ### Orderly reports over a store in memory -/

variable {ι : Type} [DecidableEq ι] {s₀ s u : SharedPublisher ι (ScriptedStore MemoryStore)}
  {name release : String} {capacity : Nat} {related : List ObjectReference}
  {store : ScriptedStore MemoryStore} {es es' : List (Event ι (ScriptedStore MemoryStore))}

/-- The conditions that are stored of a resource. -/
def storedConditions (name : String) (s : ScriptedStore MemoryStore) : List Condition :=
  (s.inner.statusOf name).conditions

/-- **Every cycle keeps the times of transition.** -/
theorem keepsTransitions_of_mem_cycles (hnew : new? name release capacity related store = .ok s₀)
    (hrun : s₀.run? es = some s) (hes : OnlyOrderly es) : ∀ c ∈ s.cycles,
      KeepsTransitions c.now (storedConditions name c.before.2)
        (storedConditions name c.after.2) := by
  intro c hc
  obtain ⟨related, outcome, -, hcourse⟩ := course_of_mem_cycles hnew hrun c hc
  exact hcourse.keepsTransitions (isOrderly_of_mem_cycles hnew hrun hes c hc)

/-- **Every cycle upholds a word on availability.** -/
theorem upholdsAvailability_of_mem_cycles
    (hnew : new? name release capacity related store = .ok s₀) (hrun : s₀.run? es = some s)
    (hes : OnlyOrderly es) : ∀ c ∈ s.cycles, UpholdsAvailability (storedConditions name c.before.2)
      (storedConditions name c.after.2) := by
  intro c hc
  obtain ⟨related, outcome, -, hcourse⟩ := course_of_mem_cycles hnew hrun c hc
  exact hcourse.upholdsAvailability (isOrderly_of_mem_cycles hnew hrun hes c hc)

/-- **A stored word on availability is upheld** while nothing but failures comes from outside. -/
theorem upholdsAvailability (hnew : new? name release capacity related store = .ok s₀)
    (hrun : s₀.run? es = some s) (hlater : s.run? es' = some u) (hes : OnlyOrderly (es ++ es'))
    (hinjections : OnlyInjections es') :
    UpholdsAvailability (storedConditions name s.publisher.store)
      (storedConditions name u.publisher.store) := by
  refine foldlM_induction_of_split (P := fun t : SharedPublisher ι (ScriptedStore MemoryStore) =>
    UpholdsAvailability (storedConditions name s.publisher.store)
      (storedConditions name t.publisher.store)) hlater (.refl _)
    fun before e after t t' hsplit hbefore hstep ht => ht.trans ?_
  have hreached := run?_append hrun hbefore
  rcases (step?_eq_some_iff.mp hstep).2.books with ⟨-, -, hstore⟩ | ⟨f, rfl, -, -, hstore⟩ |
    ⟨now, r, -, hworker, -, hafter⟩
  · rw [hstore]
    exact .refl _
  · obtain ⟨j, rfl⟩ := hinjections f (by rw [hsplit]; simp)
    rw [hstore, storedConditions, storedConditions, (j.sameContents_apply _).statusOf_eq]
    exact .refl _
  · -- the report in hand was handed over on the way here
    obtain ⟨i, hi⟩ := mem_of_mem_reports (r := r) hnew hreached (by simp [hworker])
    have hr : r.IsOrderly := by
      refine hes i r ?_
      rw [hsplit, ← List.append_assoc]
      exact List.mem_append_left _ hi
    obtain ⟨outcome, -, hcourse⟩ := CycleCourse.of_cycle t.publisher now r
    rw [(name_release_eq hnew hreached).1] at hcourse
    have hstore : t'.publisher.store = (t.publisher.cycle now r).after.2 :=
      congrArg Prod.snd hafter
    rw [hstore]
    exact hcourse.upholdsAvailability hr

end SharedPublisher

end OperatorHealth
