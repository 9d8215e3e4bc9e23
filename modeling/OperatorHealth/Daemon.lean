import OperatorHealth.Reporter
import OperatorHealth.Settings.Load
import OperatorHealth.Store.File
import OperatorHealth.Workload.Snapshot

/-!
# The daemon

The daemon loads its settings, opens the store, and starts a reporter over it, which first says
that nothing is wrong with the configuration. Then it looks at the workloads, as the snapshot file
has them, again and again, until it is stopped.

## Main definitions

* `Daemon`: a reporter over a store in a directory, with its settings.
* `Daemon.launch`: the daemon after its start, or why it cannot start.
* `Daemon.sync`: a look at the workloads.
* `Daemon.run`: a whole run.
-/

namespace OperatorHealth

/-- A reporter over a store in a directory, and the settings it was made from. -/
structure Daemon where
  settings : Settings
  reporter : Reporter FileStore

/-- Why the daemon cannot start. -/
inductive DaemonError
  | settings (error : SettingsError)
  | storeDirectory (error : StoreDirectoryError)
  | setup (error : SetupError)
  | workload (error : NameError)
  deriving DecidableEq, Repr

/-- The text of the error. -/
def DaemonError.message : DaemonError → String
  | settings error => error.message
  | storeDirectory error => error.message
  | setup error => error.message
  | workload error => error.message

namespace Daemon

/-- How the program ends. -/
inductive Exit
  | success
  | failure
  deriving DecidableEq, Repr

/-- The exit code. -/
def Exit.code : Exit → UInt32
  | success => 0
  | failure => 1

/-- The path of the settings, the first argument if there is one. -/
def settingsPath (args : List String) : String := args.head?.getD "config/config.yaml"

/-- The file tree that the daemon works in. -/
def tree (d : Daemon) : FileTree := d.reporter.publisher.store.tree

/-- The daemon with another file tree around it. -/
def setTree (d : Daemon) (tree : FileTree) : Daemon :=
  let publisher := d.reporter.publisher
  { d with reporter.publisher := { publisher with store.tree := tree } }

variable [DocumentFormat]

/-- The daemon over a store, before it is started. The names of the workloads are parsed once more,
in the texts that the settings keep. -/
def assemble (settings : Settings) (store : FileStore) : Except DaemonError Daemon := do
  let reporter ← (Reporter.new? settings.operatorName settings.release (some store)
    (some (Snapshot.inspector store.tree settings.stateFile)) settings.queueCapacity).mapError
      .setup
  let daemonSets ← (WorkloadName.parseAll? settings.daemonSets).mapError .workload
  let deployments ← (WorkloadName.parseAll? settings.deployments).mapError .workload
  return {
    settings
    reporter := { reporter with
      daemonSets
      deployments
      publisher := reporter.publisher.setRelated settings.relatedObjects } }

/-- Starts the reporter and says that nothing is wrong with the configuration. -/
def start (now : Instant) (d : Daemon) : Daemon :=
  { d with reporter :=
      (d.reporter.start.report now (.recovered .operatorConfig)).settle now }

/-- The daemon after its start, with `release` from the environment, and the file tree after that,
also if it cannot start. -/
def launch (args : List String) (release : Option String) (now : Instant) (tree : FileTree) :
    Except DaemonError Daemon × FileTree :=
  match Settings.load release tree (settingsPath args) with
  | .error e => (.error (.settings e), tree)
  | .ok settings =>
    match FileStore.open? settings.storePath tree with
    | (.error e, tree) => (.error (.storeDirectory e), tree)
    | (.ok store, tree) =>
      match assemble settings store with
      | .error e => (.error e, tree)
      | .ok d => (.ok (d.start now), (d.start now).tree)

/-- Looks at the workloads in the snapshot file. -/
def sync (now : Instant) (d : Daemon) : Daemon :=
  let reporter := { d.reporter with inspector := Snapshot.inspector d.tree d.settings.stateFile }
  { d with reporter := (reporter.report now .workloads).settle now }

/-- Stops the reporter. -/
def stop (now : Instant) (d : Daemon) : Daemon := { d with reporter := d.reporter.stop now }

/-! ### Whole runs -/

/-- A run that looks at the workloads once at each of the given times before it is stopped, and
the file tree it leaves. -/
def run (args : List String) (release : Option String) (now : Instant) (syncs : List Instant)
    (tree : FileTree) : Exit × FileTree :=
  match launch args release now tree with
  | (.error _, tree) => (.failure, tree)
  | (.ok d, _) => (.success, ((syncs.foldl (fun d t => d.sync t) d).stop (syncs.getLastD now)).tree)

end Daemon

end OperatorHealth
