import OperatorHealth.Proofs.Daemon.Run
import OperatorHealth.Proofs.LiveReporter.Alone

/-!
# The daemon as one of the runs of its reporter

The daemon uses its reporter in one way of many: one thread starts it, tells it that nothing is
wrong with the configuration, and has it look at the workloads again and again. So whatever holds of
all runs of the reporter holds of the daemon.

## Main definitions

* `Daemon.Turn.rearrange`: what a turn does to the files.

## Main results

* `Daemon.reaches_turns`: the daemon after its start and any number of looks at the workloads.
-/

namespace OperatorHealth.Daemon

open LiveReporter (ofReporter)

/-- What others do to the files before a look at the workloads. -/
def Turn.rearrange (t : Turn) (store : FileStore) : FileStore :=
  { store with tree := t.change store.tree }

variable [DocumentFormat] {ι : Type} [DecidableEq ι] {i : ι} {settings : Settings}
  {store : FileStore} {d : Daemon} {s : LiveReporter ι FileStore}
  {A : (FileStore → FileStore) → Prop}

/-- A signal at rest has its cycle. -/
theorem reaches_settle_report (h : s.IsIdle i) (hrest : s.reporter.publisher.IsAtRest)
    (now : Instant) (signal : Signal) : ∃ u, s.Reaches A u ∧ u.IsIdle i ∧
      u.reporter = (s.reporter.report now signal).settle now := by
  obtain ⟨t, hreach, hidle, hreport⟩ := h.reaches_report (A := A)
    (hrest.perform_countIn (s.reporter.answer signal).2) now
  obtain ⟨u, hlater, hidle', hsettle⟩ := hidle.reaches_settle (A := A) now
  exact ⟨u, hreach.trans hlater, hidle', by rw [hsettle, hreport]⟩

theorem reaches_start (h : assemble settings store = .ok d) (i : ι) (now : Instant) :
    ∃ u, (ofReporter d.reporter : LiveReporter ι FileStore).Reaches A u ∧ u.IsIdle i ∧
      u.reporter = (d.start now).reporter := by
  have hidle : (ofReporter d.reporter : LiveReporter ι FileStore).IsIdle i := by
    obtain ⟨_, _, _, -, -, rfl⟩ := assemble_eq_ok_iff.mp h
    exact ⟨by simp [ofReporter], rfl, rfl⟩
  obtain ⟨hover, hrest, -⟩ := isAtRest_start h
  obtain ⟨t, hreach, hidle', hstart⟩ := hidle.reaches_start (A := A) hover
  obtain ⟨u, hlater, hidle'', hu⟩ :=
    reaches_settle_report (A := A) hidle' (hstart ▸ hrest) now (.recovered .operatorConfig)
  exact ⟨u, hreach.trans hlater, hidle'', by rw [hu, hstart]; rfl⟩

/-- A look at the workloads, after others have changed the files. -/
theorem reaches_turn (h : s.IsIdle i) (hserving : d.IsServing) (hs : s.reporter = d.reporter)
    {t : Turn} (ht : A t.rearrange) :
    ∃ u, s.Reaches A u ∧ u.IsIdle i ∧ u.reporter = (d.turn t).reporter := by
  obtain ⟨s₁, hreach, hidle, hs₁⟩ := h.reaches_rearrange (A := A) ht
  obtain ⟨s₂, hlater, hidle', hs₂⟩ := hidle.reaches_change (A := A)
    (Snapshot.inspector (t.change d.tree) d.settings.stateFile)
  have hrest : s₂.reporter.publisher.IsAtRest := by
    rw [hs₂, hs₁, hs]
    exact { hserving.isAtRest with }
  obtain ⟨u, hlast, hidle'', hu⟩ := reaches_settle_report (A := A) hidle' hrest t.now .workloads
  refine ⟨u, (hreach.trans hlater).trans hlast, hidle'', ?_⟩
  rw [hu, hs₂, hs₁, hs]
  rfl

/-- **What the daemon does is a run of its reporter**, in which one thread tells it signals and the
files are changed as they are before the looks at the workloads. -/
theorem reaches_turns (h : assemble settings store = .ok d) (i : ι) (now : Instant)
    (ts : List Turn) : ∃ u, (ofReporter d.reporter : LiveReporter ι FileStore).Reaches
        (fun f => ∃ t ∈ ts, f = t.rearrange) u ∧ u.IsIdle i ∧
      u.reporter = (ts.foldl turn (d.start now)).reporter := by
  induction ts using List.reverseRecOn with
  | nil => exact reaches_start h i now
  | append_singleton ts t ih =>
    obtain ⟨s, hreach, hidle, hs⟩ := ih
    have hserving := (isServing_turns (isServing_start h now).1 ts).1
    obtain ⟨u, hlater, hidle', hu⟩ := reaches_turn hidle hserving hs (t := t)
      (A := fun f => ∃ t' ∈ ts ++ [t], f = t'.rearrange) ⟨t, by simp, rfl⟩
    refine ⟨u, (hreach.mono ?_).trans hlater, hidle', ?_⟩
    · rintro f ⟨t', ht', rfl⟩
      exact ⟨t', by simp [ht'], rfl⟩
    · rw [hu, List.foldl_append]
      rfl

end OperatorHealth.Daemon
