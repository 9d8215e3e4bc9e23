import OperatorHealth.Proofs.LiveReporter.Sync
import OperatorHealth.Proofs.SharedPublisher.Accounting

/-!
# Reporters that are alike publish the same

Two reporters that are alike look at the workloads, each over a store in memory with whatever has
been left there before. If the cycles of these looks do not fail, the two resources then say the
same: what was reported, refused or lost before does not show. This is what makes the next report
the retry of a cycle that failed. A second condition of one kind does show, since no cycle touches
it.

## Main results

* `LiveReporter.converged`: the resources of two reporters that are alike.
* `LiveReporter.not_sameButForTimes_staleStore`: a condition that is left behind.
-/

namespace OperatorHealth

namespace LiveReporter

/-! ### Two reporters -/

section TwoReporters

variable {ι : Type} [DecidableEq ι] {s s₁ s₂ u u₁ u₂ : LiveReporter ι (ScriptedStore MemoryStore)}
  {i i₁ i₂ : ι} {es es₁ es₂ : List (Event ι (ScriptedStore MemoryStore))}
  {c c₁ c₂ : Cycle (ScriptedStore MemoryStore)}

/-- What the cycle of a look at the workloads leaves, if it does not fail. -/
theorem Syncs.exists_leaves (h : s.Syncs i es u c)
    (hcounted : c.IsCounted .published ∨ c.IsCounted .skipped) :
    ∃ st, c.after.2.inner.find? s.reporter.publisher.name =
        some ⟨s.reporter.publisher.name, st⟩ ∧
      (s.reporter.answer .workloads).2.Leaves s.reporter.publisher.release
        s.reporter.publisher.related c.now
        (c.before.2.inner.statusOf s.reporter.publisher.name) st := by
  have hafter := h.after_eq
  rw [h.report_eq, runCycle_eq] at hafter
  obtain ⟨calls, -, hcourse⟩ := publish_course s.reporter.publisher.name
    s.reporter.publisher.release s.reporter.publisher.related c.now
    (s.reporter.answer .workloads).2 c.before.2
  have houtcome : c.IsCounted _ := congrArg Prod.fst hafter
  rw [hafter]
  refine hcourse.stored fun hfailed => ?_
  rw [hfailed] at houtcome
  rcases hcounted with hcounted | hcounted <;> cases houtcome.iff_eq.mp hcounted

/-- **Reporters that are alike publish the same.** Two reporters were used in any way, started or
not, over stores in memory that hold anything and whose calls fail in any pattern. They are alike.
Each is told to look at the workloads, the report is accepted, and the cycle of it is counted as
published or skipped, whatever else happens meanwhile, but for new related objects. Then each store
has the resource of their name, and the two statuses have converged: they say the same of everything
but availability, and of that as well if no workload is on its way. Unless a kind of condition
occurred twice, nothing else differs than times, order, and a word on availability from before. -/
theorem converged (h₁ : s₁.Syncs i₁ es₁ u₁ c₁) (h₂ : s₂.Syncs i₂ es₂ u₂ c₂)
    (halike : s₁.reporter.Alike s₂.reporter)
    (hc₁ : c₁.IsCounted .published ∨ c₁.IsCounted .skipped)
    (hc₂ : c₂.IsCounted .published ∨ c₂.IsCounted .skipped) :
    ∃ name a b, s₁.reporter.publisher.name = name ∧
      c₁.after.2.inner.find? name = some ⟨name, a⟩ ∧
      c₂.after.2.inner.find? name = some ⟨name, b⟩ ∧
      ResourceStatus.Converged (s₁.reporter.rollout.progressing = [])
        (c₁.before.2.inner.statusOf name) (c₂.before.2.inner.statusOf name) a b := by
  obtain ⟨signals, hledger⟩ := h₁.isReached.ledger_eq
  obtain ⟨a, hfind₁, ha⟩ := h₁.exists_leaves hc₁
  obtain ⟨b, hfind₂, hb⟩ := h₂.exists_leaves hc₂
  rw [← halike.name, ← halike.release, ← halike.related, ← halike.answer_eq] at hb
  rw [← halike.name] at hfind₂
  exact ⟨_, a, b, rfl, hfind₁, hfind₂, ha.converged_answer hb hledger⟩

end TwoReporters

/-! ### Looks at no workloads -/

/-- What a look at the workloads comes to, after the events `es₀` and before the events `es`:
whether its cycle is counted as published, and the resource after that. -/
def lookAfter? (store : ScriptedStore MemoryStore)
    (es₀ es : List (Event Bool (ScriptedStore MemoryStore))) :
    Option (Bool × Option ClusterOperator) := do
  let s ← (unused Bool store).run? es₀
  let (_, c) ← s.look? true es
  return (c.IsCounted .published, c.after.2.inner.find? "network")

theorem exists_syncs_of_lookAfter? {store : ScriptedStore MemoryStore}
    {es₀ es : List (Event Bool (ScriptedStore MemoryStore))} {found : Option ClusterOperator}
    {s : LiveReporter Bool (ScriptedStore MemoryStore)}
    (hrun : (unused Bool store).run? es₀ = some s) (hes : ∀ e ∈ es, ¬ e.IsRelate)
    (hlook : lookAfter? store es₀ es = some (true, found)) :
    ∃ u c, s.Syncs true es u c ∧ c.IsCounted .published ∧
      c.after.2.inner.find? "network" = found := by
  simp only [lookAfter?, hrun, Option.bind_eq_bind, Option.bind_some] at hlook
  obtain ⟨⟨u, c⟩, hlook, hseen⟩ := Option.bind_eq_some_iff.mp hlook
  simp only [Option.pure_def, Option.some.injEq, Prod.mk.injEq, decide_eq_true_eq] at hseen
  exact ⟨u, c, syncs_of_look? (isReached_unused hrun) hes hlook, hseen⟩

/-- A thread tells a signal after the start, and the worker has not come to it. -/
def startThenTell : List (Event Bool (ScriptedStore MemoryStore)) :=
  Event.wholeStart false ++ Event.wholeTell true (.degraded .podDeployment "CrashLoop" "")

/-- The look is handed over, and the worker goes on. -/
def workThen : List (Event Bool (ScriptedStore MemoryStore)) :=
  Event.acts true 4 ++ Event.workOn (.ofSeconds 1) ++ Event.workOn (.ofSeconds 2)

/-- Two threads tell signals before the start. -/
def tellTwice : List (Event Bool (ScriptedStore MemoryStore)) :=
  Event.wholeTell true (.degraded .operatorConfig "RenderError" "") ++
    Event.wholeTell false (.recovered .operatorConfig)

/-- The look is handed over before the start, and the worker comes to it while a stop waits. -/
def startThenStop : List (Event Bool (ScriptedStore MemoryStore)) :=
  Event.acts true 4 ++ Event.wholeStart false ++ Event.workOn (.ofSeconds 1) ++
    Event.workOn (.ofSeconds 2) ++ Event.wholeStop false 4 (.ofSeconds 3)

/-- A store without resources. -/
def emptyStore : ScriptedStore MemoryStore where
  inner := {}

/-- A store whose resource is from an earlier release, in which two kinds have a condition. -/
def agedStore : ScriptedStore MemoryStore where
  inner := { objects := [⟨"network",
    { conditions := [{ kind := .available, status := .false, reason := "Down" },
        { kind := .degraded, status := .true, reason := "RenderError" }]
      versions := [⟨"operator", "4.0.0"⟩] }⟩] }

theorem converged_agedStore : ∃ s₁ s₂ u₁ u₂ c₁ c₂,
    (unused Bool emptyStore).run? startThenTell = some s₁ ∧ s₁.Syncs true workThen u₁ c₁ ∧
    (unused Bool agedStore).run? tellTwice = some s₂ ∧ s₂.Syncs true startThenStop u₂ c₂ ∧
    ∃ name a b, c₁.after.2.inner.find? name = some ⟨name, a⟩ ∧
      c₂.after.2.inner.find? name = some ⟨name, b⟩ ∧ ResourceStatus.Converged True
        (c₁.before.2.inner.statusOf name) (c₂.before.2.inner.statusOf name) a b := by
  obtain ⟨s₁, s₂, hrun₁, hrun₂, halike, hdone⟩ : ∃ s₁ s₂,
      (unused Bool emptyStore).run? startThenTell = some s₁ ∧
      (unused Bool agedStore).run? tellTwice = some s₂ ∧
      s₁.reporter.Alike s₂.reporter ∧ s₁.reporter.rollout.progressing = [] :=
    ⟨_, _, rfl, rfl, ⟨rfl, rfl, rfl, rfl, rfl, rfl, rfl, rfl⟩, rfl⟩
  have hlook₁ : lookAfter? emptyStore startThenTell workThen = some (true, some ⟨"network",
    { conditions :=
      [{ kind := .degraded, status := .false, lastTransition := .ofSeconds 2 },
        { kind := .upgradeable, status := .true, lastTransition := .ofSeconds 1 },
        { kind := .progressing, status := .false, lastTransition := .ofSeconds 2 },
        { kind := .available, status := .true, lastTransition := .ofSeconds 2 }] }⟩) := by
    decide +kernel
  have hlook₂ : lookAfter? agedStore tellTwice startThenStop = some (true, some ⟨"network",
    { conditions :=
      [{ kind := .available, status := .true, lastTransition := .ofSeconds 3 },
        { kind := .degraded, status := .false, lastTransition := .ofSeconds 2 },
        { kind := .upgradeable, status := .true, lastTransition := .ofSeconds 1 },
        { kind := .progressing, status := .false, lastTransition := .ofSeconds 3 }] }⟩) := by
    decide +kernel
  obtain ⟨u₁, c₁, h₁, hc₁, -⟩ := exists_syncs_of_lookAfter? hrun₁
    (by simp [workThen, Event.acts, Event.workOn, Event.works, Event.IsRelate]) hlook₁
  obtain ⟨u₂, c₂, h₂, hc₂, -⟩ := exists_syncs_of_lookAfter? hrun₂
    (by simp [startThenStop, Event.acts, Event.works, Event.wholeStart, Event.wholeStop,
      Event.workOn, Event.IsRelate]) hlook₂
  obtain ⟨name, a, b, -, hfind₁, hfind₂, hconverged⟩ :=
    converged h₁ h₂ halike (.inl hc₁) (.inl hc₂)
  rw [eq_true hdone] at hconverged
  exact ⟨s₁, s₂, u₁, u₂, c₁, c₂, hrun₁, h₁, hrun₂, h₂, name, a, b, hfind₁, hfind₂, hconverged⟩

/-- A store whose resource says twice that the operator is degraded. -/
def staleStore : ScriptedStore MemoryStore where
  inner := { objects := [⟨"network", { conditions :=
    [{ kind := .degraded, status := .true, reason := "RenderError" },
      { kind := .degraded, status := .true, reason := "CrashLoop" }] }⟩] }

/-- The look is handed over before the start. -/
def startThen : List (Event Bool (ScriptedStore MemoryStore)) :=
  Event.acts true 4 ++ Event.wholeStart false ++ Event.workOn (.ofSeconds 1)

/-- A condition is left behind: no workload is on its way, but the resource in which one kind
occurred twice says something that the other one does not say. -/
theorem not_sameButForTimes_staleStore : ∃ u₁ u₂ c₁ c₂ a b,
    (unused Bool emptyStore).Syncs true startThen u₁ c₁ ∧
    (unused Bool staleStore).Syncs true startThen u₂ c₂ ∧
    (unused Bool emptyStore).reporter.Alike (unused Bool staleStore).reporter ∧
    (unused Bool staleStore).reporter.rollout.progressing = [] ∧
    c₁.IsCounted .published ∧ c₂.IsCounted .published ∧
    c₁.after.2.inner.find? "network" = some ⟨"network", a⟩ ∧
    c₂.after.2.inner.find? "network" = some ⟨"network", b⟩ ∧
    ¬ SameButForTimes a.conditions b.conditions := by
  have hrelate : ∀ e ∈ startThen, ¬ e.IsRelate := by
    simp [startThen, Event.acts, Event.works, Event.wholeStart, Event.workOn, Event.IsRelate]
  have hlook₁ : lookAfter? emptyStore [] startThen = some (true, some ⟨"network",
    { conditions :=
      [{ kind := .degraded, status := .false, lastTransition := .ofSeconds 1 },
        { kind := .progressing, status := .false, lastTransition := .ofSeconds 1 },
        { kind := .available, status := .true, lastTransition := .ofSeconds 1 },
        { kind := .upgradeable, status := .true, lastTransition := .ofSeconds 1 }] }⟩) := by
    decide +kernel
  have hlook₂ : lookAfter? staleStore [] startThen = some (true, some ⟨"network",
    { conditions :=
      [{ kind := .degraded, status := .false, lastTransition := .ofSeconds 1 },
        { kind := .degraded, status := .true, reason := "CrashLoop" },
        { kind := .progressing, status := .false, lastTransition := .ofSeconds 1 },
        { kind := .available, status := .true, lastTransition := .ofSeconds 1 },
        { kind := .upgradeable, status := .true, lastTransition := .ofSeconds 1 }] }⟩) := by
    decide +kernel
  obtain ⟨u₁, c₁, h₁, hc₁, hfind₁⟩ := exists_syncs_of_lookAfter? rfl hrelate hlook₁
  obtain ⟨u₂, c₂, h₂, hc₂, hfind₂⟩ := exists_syncs_of_lookAfter? rfl hrelate hlook₂
  exact ⟨u₁, u₂, c₁, c₂, _, _, h₁, h₂, ⟨rfl, rfl, rfl, rfl, rfl, rfl, rfl, rfl⟩, rfl, hc₁, hc₂,
    hfind₁, hfind₂, by decide +kernel⟩

end LiveReporter

end OperatorHealth
