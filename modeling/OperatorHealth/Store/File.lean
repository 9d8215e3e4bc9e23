import OperatorHealth.Files.Load
import OperatorHealth.Resource.Codec
import OperatorHealth.Store.Basic

/-!
# Stores in a directory

A store in a directory keeps each resource in a file of its own, named after the resource, as a
document in a format that is given. A resource is first written to a temporary file beside its own
and then renamed into place, so a reader never sees half of it.

## Main definitions

* `FileStore`: a directory in a file tree.
* `FileStore.open?`: the store in a directory, which is made if it is not there.
* `FileStore.filePath`: the file of a resource.
* `FileStore.get`, `FileStore.create`, `FileStore.replaceStatus`: the calls.
-/

namespace OperatorHealth

/-- A directory of resources in a file tree. -/
structure FileStore where
  directory : String
  tree : FileTree
  deriving Repr

/-- The directory of a store that cannot be made. -/
structure StoreDirectoryError where
  directory : String
  deriving DecidableEq, Repr

/-- The text of the error. -/
def StoreDirectoryError.message (e : StoreDirectoryError) : String :=
  terminated ("Failed to create store directory " ++ e.directory)

namespace FileStore

/-- The store in a directory, which is made if it is not there, and the file tree after that. If
the directory cannot be made, those on the way to it stay. -/
def open? (directory : String) (tree : FileTree) :
    Except StoreDirectoryError FileStore × FileTree :=
  let tree := tree.createDirectories directory
  (if tree.hasDirectory directory then .ok { directory, tree } else .error ⟨directory⟩, tree)

/-- The path of the file of a resource. -/
def filePath (s : FileStore) (name : String) : String := Path.join s.directory (name ++ ".yaml")

/-- The path of the temporary file of a resource. -/
def draftPath (s : FileStore) (name : String) : String := s.filePath name ++ ".tmp"

/-! ### Files of resources -/

/-- Puts a text into the file for a name, by way of the temporary file. This stays behind, without
the text if the disk refuses that, and with it if it cannot be renamed. -/
def writeText (name text : String) (s : FileStore) : Except StoreFault Unit × FileStore :=
  match s.tree.write (s.draftPath name) text with
  | (.error .cannotOpen, tree) =>
    (.error (.store (.cannotOpen (s.draftPath name))), { s with tree })
  | (.error .refused, tree) =>
    (.error (.store (.cannotWrite (s.draftPath name))), { s with tree })
  | (.ok (), tree) =>
    match tree.rename? (s.draftPath name) (s.filePath name) with
    | .error cause => (.error (.store (.cannotReplace (s.filePath name) cause)), { s with tree })
    | .ok tree => (.ok (), { s with tree })

variable [DocumentFormat]

/-- The resource in the file for a name. The name that the file records is taken as it is. -/
def read (s : FileStore) (name : String) : Except StoreFault ClusterOperator :=
  match s.tree.contains (s.filePath name) with
  | .error e => .error (.path e)
  | .ok false => .error (.store (.notFound name))
  | .ok true =>
    match s.tree.load? (s.filePath name) with
    | .error _ => .error (.store (.unreadable (s.filePath name)))
    | .ok d =>
      match ClusterOperator.decode d with
      | .error _ => .error (.store (.unreadable (s.filePath name)))
      | .ok r => .ok r

/-- Puts a resource into the file for its name, as a document on a line of its own. -/
def write (r : ClusterOperator) (s : FileStore) : Except StoreFault Unit × FileStore :=
  match DocumentFormat.write? r.encode with
  | none => (.error (.store (.cannotEncode r.name)), s)
  | some text => s.writeText r.name (text ++ "\n")

/-! ### Calls -/

/-- The resource of a name. -/
def get (name : String) (s : FileStore) : Except StoreFault ClusterOperator := s.read name

/-- Adds a resource, if nothing stands where its file goes. -/
def create (r : ClusterOperator) (s : FileStore) : Except StoreFault Unit × FileStore :=
  match s.tree.contains (s.filePath r.name) with
  | .error e => (.error (.path e), s)
  | .ok true => (.error (.store (.alreadyExists r.name)), s)
  | .ok false => write r s

/-- Replaces the status of the resource in the file for a name. It is written under the name that
the file records. -/
def replaceStatus (r : ClusterOperator) (s : FileStore) : Except StoreFault Unit × FileStore :=
  match s.read r.name with
  | .error e => (.error e, s)
  | .ok current => write { current with status := r.status } s

instance : ResourceStore FileStore where
  get name s := (get name s, s)
  create := create
  replaceStatus := replaceStatus

end FileStore

end OperatorHealth
