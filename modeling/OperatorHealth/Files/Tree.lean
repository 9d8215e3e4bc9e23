import OperatorHealth.Files.Path

/-!
# File trees

A tree of directories and files, as a process sees it from its current directory. Files hold text.
The current directory, the directories above it, and the root are always there.

The operations are those of a file system and fail as they do there: a path leads nowhere if a
name before its last is no directory or if it is too long, a file is not written over a directory,
and renaming onto a directory fails. Directories are made from the outside in, so those that were
made stay when one further in cannot be.

A file is opened before a text goes into it, which leaves it empty, and the disk may refuse the
text, because it is full or broken. Which texts it will refuse is a part of the tree that nobody can
see. A text that it has not refused is in the file when this is closed.

## Main definitions

* `Place`: where something can stand in a tree.
* `FileTree`, `FileTree.lookup`, `FileTree.set`: the tree, and what it has at a place.
* `FileTree.resolve`: the place that a path leads to.
* `FileTree.contains`, `FileTree.read?`, `FileTree.write`, `FileTree.rename?`,
  `FileTree.createDirectories`, `FileTree.list`: the operations on paths.
* `FileTree.place?`, `FileTree.remove`: arranging a tree.
-/

namespace OperatorHealth

/-- A place in a file tree, by the names that lead to it, the innermost first. Their number comes
first, so that places at different depths are told apart by it. -/
structure Place where
  depth : Nat
  names : List String
  length_names : names.length = depth
  deriving DecidableEq, Repr

namespace Place

/-- The place that names lead to, the innermost first. -/
def ofNames (names : List String) : Place := ⟨names.length, names, rfl⟩

/-- The current directory. -/
def current : Place := ofNames []

/-- The root of the file system, above every absolute path. -/
def root : Place := ofNames ["/"]

/-- The place of a name in a directory. -/
def child (p : Place) (name : String) : Place :=
  ⟨p.depth + 1, name :: p.names, by rw [List.length_cons, p.length_names]⟩

/-- Whether a place is there in every tree: the root, the current directory, or one above it. -/
def isStanding (p : Place) : Bool := p == root || p.names.all (· == "..")

/-- The directory of a place. The root is its own, and above the current directory the names are
not known. -/
def parent (p : Place) : Place :=
  match p.names with
  | [] => p.child ".."
  | name :: names =>
    if name = ".." then p.child ".." else if p = root then root else ofNames names

/-- Whether a place is another one or inside it. -/
def isWithin (p q : Place) : Bool := q.names.isSuffixOf p.names

end Place

/-- What stands at a place. -/
inductive FileEntry
  | directory
  | file (text : String)
  deriving DecidableEq, Repr

/-- Directories and files by their places, and for each text that is going to be written whether the
disk will refuse it. It refuses none that is not listed. -/
structure FileTree where
  entries : List (Place × FileEntry) := []
  refusals : List Bool := []
  deriving Repr

namespace FileTree

/-! ### Places -/

/-- What the tree has at a place. -/
def lookup (t : FileTree) (p : Place) : Option FileEntry :=
  if p.isStanding then some .directory else (t.entries.find? (·.1 == p)).map Prod.snd

/-- Whether a place is a directory. -/
def isDirectory (t : FileTree) (p : Place) : Bool := t.lookup p == some .directory

/-- The tree without the entry at a place. -/
def erase (t : FileTree) (p : Place) : FileTree :=
  { t with entries := t.entries.filter (·.1 != p) }

/-- The tree with an entry put at a place, for what was there. -/
def set (t : FileTree) (p : Place) (e : FileEntry) : FileTree :=
  { t with entries := (p, e) :: (t.erase p).entries }

/-! ### Paths -/

/-- Why a path leads to no place. -/
inductive PathError
  /-- The path is empty, or a name before its last is no directory. -/
  | noDirectory
  /-- The path, or a name in it, is too long. -/
  | tooLong
  deriving DecidableEq, Repr

/-- Where a path starts. -/
def start (path : String) : Place := if Path.isAbsolute path then Place.root else Place.current

/-- One name further from a place, which has to be a directory. -/
def step (t : FileTree) (p : Place) (name : String) : Except PathError Place :=
  if t.isDirectory p then
    if Path.isHere name then .ok p
    else if name = ".." then .ok p.parent
    else if Path.isLongName name then .error .tooLong
    else .ok (p.child name)
  else .error .noDirectory

/-- The place that a path leads to, whether or not anything is there. -/
def resolve (t : FileTree) (path : String) : Except PathError Place :=
  if Path.isTooLong path then .error .tooLong
  else if terminated path = "" then .error .noDirectory
  else (Path.names path).foldlM t.step (start path)

/-- What stands at the end of a path. -/
def find? (t : FileTree) (path : String) : Option FileEntry :=
  (t.resolve path).toOption.bind t.lookup

/-- Whether a path leads to a directory. -/
def hasDirectory (t : FileTree) (path : String) : Bool := t.find? path == some .directory

/-- A path so long that the system does not tell whether anything stands at its end. -/
structure PathTooLong where
  path : String
  deriving DecidableEq, Repr

/-- The text of the error. -/
def PathTooLong.message (e : PathTooLong) : String :=
  terminated ("filesystem error: status: File name too long [" ++ e.path ++ "]")

/-- Whether anything stands at the end of a path. -/
def contains (t : FileTree) (path : String) : Except PathTooLong Bool :=
  match t.resolve path with
  | .ok p => .ok (t.lookup p).isSome
  | .error .noDirectory => .ok false
  | .error .tooLong => .error ⟨path⟩

/-! ### Files -/

/-- The text read through a path. A directory can be opened and has no text. -/
def read? (t : FileTree) (path : String) : Option String :=
  (t.find? path).map fun
    | .file text => text
    | .directory => ""

/-- The place of the file that a path opens, be it there or not. Its directory has to be there. -/
def open? (t : FileTree) (path : String) : Option Place :=
  match t.resolve path with
  | .error _ => none
  | .ok p => if t.isDirectory p then none else some p

/-- Why a text does not get into a file. -/
inductive WriteError
  | cannotOpen
  | refused
  deriving DecidableEq, Repr

/-- The tree when one more text has been taken or refused by the disk. -/
def answered (t : FileTree) : FileTree := { t with refusals := t.refusals.tail }

/-- Writes a text to a file, for what was in it, and gives the tree after that. The file is empty if
the disk refuses the text. -/
def write (t : FileTree) (path text : String) : Except WriteError Unit × FileTree :=
  match t.open? path with
  | none => (.error .cannotOpen, t)
  | some p =>
    if t.refusals.headD false then (.error .refused, (t.set p (.file "")).answered)
    else (.ok (), (t.set p (.file text)).answered)

/-- Why a file cannot be renamed. -/
inductive RenameError
  | noSuchFile
  | isDirectory
  deriving DecidableEq, Repr

/-- The text of the error. -/
def RenameError.message : RenameError → String
  | noSuchFile => "No such file or directory"
  | isDirectory => "Is a directory"

/-- The tree with a file moved to another path, over the file that may be there. -/
def rename? (t : FileTree) (source target : String) : Except RenameError FileTree :=
  match t.resolve source, t.resolve target with
  | .ok p, .ok q =>
    match t.lookup p with
    | some (.file text) =>
      if t.isDirectory q then .error .isDirectory else .ok ((t.erase p).set q (.file text))
    | _ => .error .noSuchFile
  | _, _ => .error .noSuchFile

/-! ### Directories -/

/-- How many of the names from a place on lead, one after the other, to something that is there. -/
def countPresent (t : FileTree) (p : Place) : List String → Nat
  | [] => 0
  | name :: names =>
    match t.step p name with
    | .error _ => 0
    | .ok q => if (t.lookup q).isSome then t.countPresent q names + 1 else 0

/-- The names in a path at which directories are missing. The names behind a zero character count
as well. -/
def missing (t : FileTree) (path : String) : List String :=
  ((Path.components path).drop (t.countPresent (start path) (Path.names path))).filter Path.isProper

/-- The most directories that are made at once. -/
def maxMissing : Nat := 1000

/-- The tree with the directories that the names from a place on lead through, as far as they can
be made: a file in the way or a name that is too long is the end. -/
def makeAlong (t : FileTree) (p : Place) : List String → FileTree
  | [] => t
  | name :: names =>
    match t.step p name with
    | .error _ => t
    | .ok q =>
      match t.lookup q with
      | some .directory => t.makeAlong q names
      | some (.file _) => t
      | none => (t.set q .directory).makeAlong q names

/-- The tree with every directory along a path, as far as they can be made. None is if the path is
too long or too many of them are missing. -/
def createDirectories (t : FileTree) (path : String) : FileTree :=
  if Path.isTooLong path ∨ maxMissing < (t.missing path).length then t
  else t.makeAlong (start path) (Path.names path)

/-- The names in a directory, in order. -/
def list (t : FileTree) (path : String) : List String :=
  match t.resolve path with
  | .error _ => []
  | .ok p =>
    (t.entries.filterMap fun e => if e.1.parent = p then e.1.names.head? else none).mergeSort

/-! ### Arranging a tree -/

/-- The tree with a text put at the end of a path, and every directory on the way. -/
def place? (t : FileTree) (path text : String) : Option FileTree :=
  let tree := t.makeAlong (start path) (Path.names path).dropLast
  (tree.open? path).map fun p => tree.set p (.file text)

/-- The tree without the file or the directory at the end of a path and all that is in it. -/
def remove (t : FileTree) (path : String) : FileTree :=
  match t.resolve path with
  | .error _ => t
  | .ok p => { t with entries := t.entries.filter fun e => !e.1.isWithin p }

end FileTree

end OperatorHealth
