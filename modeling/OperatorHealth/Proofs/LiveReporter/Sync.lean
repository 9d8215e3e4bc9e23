import OperatorHealth.Proofs.LiveReporter.Told
import OperatorHealth.Workload.Static

/-!
# Looking at the workloads

When a reporter is told to look at the workloads, it works out a report from what it keeps and sees
at that moment. The publisher may be at work then, may not be started yet, or may be about to stop.
If it takes the report in, the cycle of the report comes after the cycles of all reports that were
taken in before, also if that is only when a stop waits for the worker. Which cycle that is can be
told from the number of those reports.

## Main definitions

* `LiveReporter.IsReached`: a reporter that was new once, and has been used since.
* `SharedPublisher.Follows`: cycles for the same name, release and related objects.
* `LiveReporter.Syncs`: a look at the workloads that is accepted, and the cycle of it.
* `LiveReporter.look?`: the state after a look, and its cycle.

## Main results

* `SharedPublisher.report_of_getElem?`: which report a cycle is for.
* `LiveReporter.IsReached.exists_since`: what is answered and accepted after a given moment.
* `LiveReporter.Syncs.report_eq`, `LiveReporter.Syncs.after_eq`: what the cycle is.
* `LiveReporter.syncs_of_look?`: a look that can be computed.
-/

namespace OperatorHealth

/-! ### Cycles of a publisher -/

namespace SharedPublisher

variable {ι σ : Type} {s t u : SharedPublisher ι σ} {k : Nat} {c : Cycle σ}

/-- The reports whose cycles were run are those that entered the queue first. -/
theorem report_of_getElem? (hs : s.InOrder) (hc : s.cycles[k]? = some c) :
    (s.entered.map (·.2))[k]? = some c.report := by
  have hlt : k < s.processed.length := by
    rw [processed, List.length_map]
    exact (List.getElem?_eq_some_iff.mp hc).1
  rw [hs, List.append_assoc, List.getElem?_append_left hlt, processed, List.getElem?_map, hc,
    Option.map_some]

/-- The report in hand entered the queue next. -/
theorem report_of_publishing (hs : s.InOrder) {r : StatusReport}
    (h : s.publisher.worker = .publishing r) :
    (s.entered.map (·.2))[s.cycles.length]? = some r := by
  rw [hs, List.append_assoc, List.getElem?_append_right (by simp [processed]), h]
  simp [processed]

theorem length_cycles_le (hs : s.InOrder) : s.cycles.length ≤ s.entered.length := by
  have hlength := congrArg List.length hs
  simp only [processed, List.length_map, List.length_append] at hlength
  omega

variable [DecidableEq ι] [ResourceStore σ] {e : Event ι σ} {es : List (Event ι σ)}

/-- The state `t` comes after `s` without a change to the related objects: the cycles since `s` are
for the name, the release and the related objects that `s` has. -/
structure Follows (s t : SharedPublisher ι σ) : Prop where
  name : t.publisher.name = s.publisher.name
  release : t.publisher.release = s.publisher.release
  related : t.publisher.related = s.publisher.related
  cycles : ∀ (j : Nat) c, s.cycles.length ≤ j → t.cycles[j]? = some c →
    c.after = runCycle s.publisher.name s.publisher.release s.publisher.related c.now c.report
      c.before.1 c.before.2

omit [DecidableEq ι] in
theorem Follows.refl (s : SharedPublisher ι σ) : s.Follows s where
  name := rfl
  release := rfl
  related := rfl
  cycles j c hj hc := by
    have hlt := (List.getElem?_eq_some_iff.mp hc).1
    omega

theorem Step.follows {t' : SharedPublisher ι σ} (h : t.Step e t') (he : ∀ rs, e ≠ .relate rs)
    (ht : s.Follows t) : s.Follows t' := by
  refine ⟨h.name_release_eq.1.trans ht.name, h.name_release_eq.2.trans ht.release,
    (h.related_eq he).trans ht.related, fun j c hj hc => ?_⟩
  rcases h.books with ⟨hcycles, -⟩ | ⟨f, -, hcycles, -⟩ | ⟨now, r, -, -, hcycles, -⟩ <;>
    rw [hcycles] at hc
  · exact ht.cycles j c hj hc
  · exact ht.cycles j c hj hc
  · rcases getElem?_append_singleton_cases hc with ⟨-, hc⟩ | ⟨-, rfl⟩
    · exact ht.cycles j c hj hc
    · simp [Publisher.cycle, ht.name, ht.release, ht.related]

theorem follows (hrun : s.run? es = some t) (hes : ∀ rs, .relate rs ∉ es) : s.Follows t :=
  run?_induction hrun (.refl s) fun _ he _ _ h => h.follows fun rs hrs => hes rs (hrs ▸ he)

/-- Answers stay as they are. -/
theorem Step.answers_prefix (h : s.Step e t) : s.answers <+: t.answers := by
  cases h with
  | act i hact => exact List.prefix_append ..
  | _ => exact List.prefix_rfl

end SharedPublisher

namespace LiveReporter

variable {ι σ : Type} [DecidableEq ι] [ResourceStore σ] {s t u : LiveReporter ι σ} {e : Event ι σ}
  {es : List (Event ι σ)} {i : ι} {c : Cycle σ}

/-! ### What comes of a reporter -/

/-- A reporter that was new once, and has been used since in any way. -/
def IsReached (s : LiveReporter ι σ) : Prop :=
  ∃ name release capacity store inspector es s₀,
    new? name release capacity store inspector = .ok s₀ ∧ s₀.run? es = some s

theorem Step.answers_prefix (h : s.Step e t) : s.shared.answers <+: t.shared.answers := by
  cases h with
  | pass hevent hstep => exact hstep.answers_prefix
  | _ => exact List.prefix_rfl

theorem answers_prefix (hrun : s.run? es = some u) : s.shared.answers <+: u.shared.answers :=
  run?_induction (P := fun t => s.shared.answers <+: t.shared.answers) hrun List.prefix_rfl
    fun _ _ _ _ h ht => ht.trans h.answers_prefix

namespace IsReached

theorem run (hs : s.IsReached) (hrun : s.run? es = some u) : u.IsReached := by
  obtain ⟨name, release, capacity, store, inspector, es₀, s₀, hnew, hrun₀⟩ := hs
  exact ⟨name, release, capacity, store, inspector, es₀ ++ es, s₀, hnew, run?_append hrun₀ hrun⟩

theorem inOrder (hs : s.IsReached) : s.InOrder := by
  obtain ⟨name, release, capacity, store, inspector, es, s₀, hnew, hrun⟩ := hs
  exact LiveReporter.inOrder hnew hrun

theorem ledger_eq (hs : s.IsReached) : ∃ signals, s.ledger = .after signals := by
  obtain ⟨name, release, capacity, store, inspector, es, s₀, hnew, hrun⟩ := hs
  exact ⟨_, LiveReporter.ledger_eq hrun (of_new? hnew).2.1⟩

/-- What has entered the queue has its cycles in order, and is what was accepted. -/
theorem shared_inOrder (hs : s.IsReached) :
    s.shared.InOrder ∧ s.shared.entered = s.shared.accepted := by
  obtain ⟨name, release, capacity, store, inspector, es, s₀, hnew, hrun⟩ := hs
  obtain ⟨hshared, hledger, -⟩ := of_new? hnew
  obtain ⟨events, hevents, -⟩ := exists_run?_shared_does hrun hledger
  exact ⟨SharedPublisher.inOrder hshared hevents,
    SharedPublisher.entered_eq_accepted hshared hevents⟩

/-- What is answered and accepted after a moment at which the lock is free: the answers since then
are to the hand-overs begun since then, in order, and what enters the queue is what is accepted of
these. -/
theorem exists_since (hs : s.IsReached) (hfree : s.isFree = true) (hrun : s.run? es = some u)
    {handed : List (ι × StatusReport)} (hbegun : u.shared.begun = s.shared.begun ++ handed) :
    ∃ later, u.shared.answers = s.shared.answers ++ later ∧
      (later.map fun a => (a.thread, a.report)) <+: handed ∧
      u.shared.entered =
        s.shared.entered ++ (later.filter (·.accepted)).map fun a => (a.thread, a.report) := by
  obtain ⟨later, hlater⟩ := answers_prefix hrun
  have hu := hs.run hrun
  refine ⟨later, hlater.symm, ?_, ?_⟩
  · have hbefore := hs.inOrder.answered
    have hnow := hu.inOrder.answered
    rw [handing_of_isFree hfree, List.append_nil] at hbefore
    rw [← hlater, List.map_append, hbefore, hbegun, List.append_assoc] at hnow
    exact ⟨_, List.append_cancel_left hnow⟩
  · rw [hu.shared_inOrder.2, hs.shared_inOrder.2, SharedPublisher.accepted,
      SharedPublisher.accepted, ← hlater, List.filter_append, List.map_append]

end IsReached

/-! ### The cycle of a look at the workloads -/

/-- The related objects are set. -/
def Event.IsRelate : Event ι σ → Prop
  | .pass (.relate _) _ => True
  | _ => False

/-- A reporter that was new once has come to the state `s`. Thread `i` tells it to look at the
workloads, and the events `es` follow, which do not set the related objects. They lead to the state
`u`, by when the report of the look was accepted and its cycle `c` was run. It is the one that comes
after the cycles of all reports that were accepted before. -/
structure Syncs (s : LiveReporter ι σ) (i : ι) (es : List (Event ι σ)) (u : LiveReporter ι σ)
    (c : Cycle σ) : Prop where
  isReached : s.IsReached
  run : s.run? (.tell i .workloads :: es) = some u
  unrelated : ∀ e ∈ es, ¬ e.IsRelate
  accepted : ∃ a, u.shared.answers[s.shared.answers.length]? = some a ∧ a.accepted = true
  cycle : u.shared.cycles[s.shared.entered.length]? = some c

namespace Syncs

/-- The look needs the lock. -/
theorem isFree (h : s.Syncs i es u c) : s.isFree = true := by
  obtain ⟨t, hstep, -⟩ := foldlM_cons_eq_some_iff.mp h.run
  cases (step?_eq_some_iff.mp hstep).2 with
  | tell i signal hfree hover => exact hfree

/-- The report of the look enters the queue next. -/
theorem getElem?_entered (h : s.Syncs i es u c) : u.shared.entered[s.shared.entered.length]? =
    some (i, (s.reporter.answer .workloads).2) := by
  obtain ⟨t, hstep, hrest⟩ := foldlM_cons_eq_some_iff.mp h.run
  obtain ⟨handed, hbegun, -⟩ := begun_eq hrest
  rw [(step?_eq_some_iff.mp hstep).2.begun_eq, List.append_assoc] at hbegun
  obtain ⟨later, hanswers, hfirst, hentered⟩ := h.isReached.exists_since h.isFree h.run hbegun
  obtain ⟨a, ha, haccepted⟩ := h.accepted
  rw [hanswers, List.getElem?_append_right (Nat.le_refl _), Nat.sub_self] at ha
  obtain ⟨later, rfl⟩ : ∃ rest, later = a :: rest := by
    cases later with
    | nil => cases ha
    | cons b rest => exact ⟨rest, by rw [Option.some.inj ha]⟩
  have hanswer : (a.thread, a.report) = (i, (s.reporter.answer .workloads).2) := by
    obtain ⟨rest, hrest⟩ := hfirst
    exact (List.cons.inj hrest).1
  rw [hentered, List.getElem?_append_right (Nat.le_refl _), Nat.sub_self,
    List.filter_cons_of_pos haccepted, List.map_cons, List.getElem?_cons_zero, hanswer]

/-- The cycle is that of the report on the workloads. -/
theorem report_eq (h : s.Syncs i es u c) : c.report = (s.reporter.answer .workloads).2 := by
  have hreport :=
    SharedPublisher.report_of_getElem? (h.isReached.run h.run).shared_inOrder.1 h.cycle
  rw [List.getElem?_map, h.getElem?_entered] at hreport
  exact (Option.some.inj hreport).symm

/-- What the cycle does. -/
theorem after_eq (h : s.Syncs i es u c) :
    c.after = runCycle s.reporter.publisher.name s.reporter.publisher.release
      s.reporter.publisher.related c.now c.report c.before.1 c.before.2 := by
  obtain ⟨signals, hledger⟩ := h.isReached.ledger_eq
  obtain ⟨events, hevents, hdoes, -⟩ := exists_run?_shared_does h.run hledger
  refine (SharedPublisher.follows hevents fun rs hrs => ?_).cycles _ c
    (SharedPublisher.length_cycles_le h.isReached.shared_inOrder.1) h.cycle
  obtain ⟨e, he, hevent⟩ := hdoes _ hrs
  cases hevent with
  | pass event hnone =>
    rcases List.mem_cons.mp he with he | he
    · cases he
    · exact h.unrelated _ he trivial

end Syncs

/-! ### Looks that are run -/

/-- The state after a look at the workloads and the events `es`, and the cycle of the look, if its
report is accepted and has had its cycle by then. -/
def look? (s : LiveReporter ι σ) (i : ι) (es : List (Event ι σ)) :
    Option (LiveReporter ι σ × Cycle σ) := do
  let u ← s.run? (.tell i .workloads :: es)
  let a ← u.shared.answers[s.shared.answers.length]?
  let c ← u.shared.cycles[s.shared.entered.length]?
  if a.accepted then some (u, c) else none

theorem syncs_of_look? (hs : s.IsReached) (hes : ∀ e ∈ es, ¬ e.IsRelate)
    (h : s.look? i es = some (u, c)) : s.Syncs i es u c := by
  obtain ⟨u', hrun, h⟩ := Option.bind_eq_some_iff.mp h
  obtain ⟨a, ha, h⟩ := Option.bind_eq_some_iff.mp h
  obtain ⟨c', hc, h⟩ := Option.bind_eq_some_iff.mp h
  obtain ⟨haccepted, h⟩ := Option.ite_none_right_eq_some.mp h
  cases h
  exact ⟨hs, hrun, hes, ⟨a, ha, haccepted⟩, hc⟩

/-- A reporter that watches no workloads, before any thread has used it. -/
def unused (ι : Type) (store : σ) : LiveReporter ι σ :=
  .ofReporter
    { publisher :=
        { name := "network", release := "4.1.0", store
          queue := { capacity := 8, capacity_pos := by decide } }
      inspector := WorkloadTable.inspector {} }

theorem isReached_unused {store : σ} (hrun : (unused ι store).run? es = some s) : s.IsReached :=
  have hnew : new? "network" "4.1.0" 8 store (WorkloadTable.inspector {}) =
    .ok (unused ι store) := rfl
  ⟨_, _, _, _, _, _, _, hnew, hrun⟩

end LiveReporter

end OperatorHealth
