import OperatorHealth.Daemon
import OperatorHealth.Json.Format
import Std.Time.DateTime.Timestamp

/-!
# The command line

The program takes the path of its settings as its argument. It reads the files it needs from the
disk into a file tree, lets the daemon work on the tree, and writes what has changed back to the
disk. Every look at the workloads is written back before the next one, so the program can be ended
by a signal at any time. Documents stand in the files in JSON.

## Main definitions

* `main`: the program.
-/

namespace OperatorHealth.CommandLine

open scoped Json

/-- The current time. -/
def currentTime : IO Instant := do
  return ⟨Int64.ofInt (← Std.Time.Timestamp.now).toNanosecondsSinceUnixEpoch.toInt⟩

/-- The tree with a file, or a directory and all that is in it, added as the disk has it. -/
partial def capture (tree : FileTree) (path : String) : IO FileTree := do
  try
    let onDisk ← IO.FS.realPath path
    if ← onDisk.isDir then
      let mut tree := tree.createDirectories path
      for entry in ← onDisk.readDir do
        tree ← capture tree (Path.join path entry.fileName)
      return tree
    else
      return (tree.place? path (← IO.FS.readFile onDisk)).getD tree
  catch _ => return tree

/-- The path of a place. -/
def pathOf (p : Place) : String := String.intercalate "/" p.names.reverse

/-- The places that names lead through from a place on, if each of them is a directory. -/
def placesAlong (p : Place) : List String → List Place
  | [] => []
  | name :: names =>
    let q := if Path.isHere name then p else if name = ".." then p.parent else p.child name
    q :: placesAlong q names

/-- The tree with a file or a directory, without what is in it, added as the disk has it. -/
def captureEntry (tree : FileTree) (p : Place) : IO FileTree := do
  if p.isStanding then return tree
  try
    let onDisk ← IO.FS.realPath (pathOf p)
    if ← onDisk.isDir then return tree.set p .directory
    else return tree.set p (.file (← IO.FS.readFile onDisk))
  catch _ => return tree

/-- The tree with what it has at a path brought up to date with the disk. -/
def refresh (tree : FileTree) (path : String) : IO FileTree := capture (tree.remove path) path

/-- Brings the disk from one tree to the next. A file is written beside its place and then renamed
into it. -/
def writeBack (old new : FileTree) : IO Unit := do
  for (place, entry) in new.entries.reverse do
    if old.lookup place ≠ some entry then
      match entry with
      | .directory => IO.FS.createDirAll (pathOf place)
      | .file text =>
        let draft := pathOf (place.parent.child ".new")
        IO.FS.writeFile draft text
        IO.FS.rename draft (pathOf place)

/-- Looks at the workloads, again and again. -/
partial def loop (d : Daemon) : IO UInt32 := do
  let tree ← refresh (← refresh d.tree d.settings.storePath) d.settings.stateFile
  let d := (d.setTree tree).sync (← currentTime)
  try writeBack tree d.tree
  catch e => IO.eprintln e.toString
  IO.sleep d.settings.syncInterval
  loop d

end OperatorHealth.CommandLine

open OperatorHealth CommandLine Json in
/-- Runs the daemon until it is ended. -/
def main (args : List String) : IO UInt32 := do
  let release ← IO.getEnv "RELEASE_VERSION"
  let path := Daemon.settingsPath args
  let mut tree ← refresh {} path
  if let .ok settings := Settings.load release tree path then
    let places := placesAlong (FileTree.start settings.storePath) (Path.names settings.storePath)
    tree ← places.foldlM captureEntry tree
    tree ← refresh tree settings.storePath
  let (launched, after) := Daemon.launch args release (← currentTime) tree
  writeBack tree after
  match launched with
  | .error e =>
    IO.eprintln ("Fatal error: " ++ e.message)
    return Daemon.Exit.failure.code
  | .ok d => loop d
