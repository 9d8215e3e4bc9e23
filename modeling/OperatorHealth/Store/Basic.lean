import OperatorHealth.Files.Tree
import OperatorHealth.Resource.Basic

/-!
# Stores of resources

A store keeps resources by name. A reader asks for one; a writer creates one that is not there
yet, or replaces the status of one that is. Each call answers and leaves the store in a new state,
also when it fails.

## Main definitions

* `StoreError`: why a store refuses a call.
* `StoreFault`: what a call can end with instead of an answer.
* `ResourceStore`: the calls of a store.
-/

namespace OperatorHealth

/-- Why a store refuses a call. -/
inductive StoreError
  /-- No resource has the name. -/
  | notFound (name : String)
  /-- A resource already has the name. -/
  | alreadyExists (name : String)
  /-- The file of a resource does not hold one. -/
  | unreadable (path : String)
  /-- A resource has no text. -/
  | cannotEncode (name : String)
  /-- A file cannot be opened for writing. -/
  | cannotOpen (path : String)
  /-- A file cannot be written. -/
  | cannotWrite (path : String)
  /-- A file cannot be replaced. -/
  | cannotReplace (path : String) (cause : FileTree.RenameError)
  /-- Any other reason. -/
  | refused (message : String)
  deriving DecidableEq, Repr

namespace StoreError

/-- The text of the error. What those who read and write documents say is not repeated. -/
def message (e : StoreError) : String :=
  terminated <| match e with
    | notFound name => "clusteroperator \"" ++ name ++ "\" not found"
    | alreadyExists name => "clusteroperator \"" ++ name ++ "\" already exists"
    | unreadable path => "failed to read " ++ path ++ ": <yaml>"
    | cannotEncode name => "failed to encode " ++ name ++ ": <yaml>"
    | cannotOpen path => "failed to open " ++ path
    | cannotWrite path => "failed to write " ++ path
    | cannotReplace path cause => "failed to replace " ++ path ++ ": " ++ cause.message
    | refused message => message

end StoreError

/-- What a call can end with instead of an answer: an error of the store, or a failure that is
none of the store's own. -/
inductive StoreFault
  | store (error : StoreError)
  /-- The path of a resource is too long to look it up. -/
  | path (error : FileTree.PathTooLong)
  /-- Any other failure. -/
  | foreign (message : String)
  deriving DecidableEq, Repr

/-- The text of the fault. -/
def StoreFault.message : StoreFault → String
  | store error => error.message
  | path error => error.message
  | foreign message => terminated message

/-- The calls of a store whose states have the type `σ`. -/
class ResourceStore (σ : Type) where
  /-- The resource of a name. -/
  get : String → σ → Except StoreFault ClusterOperator × σ
  /-- Adds a resource under its name. -/
  create : ClusterOperator → σ → Except StoreFault Unit × σ
  /-- Replaces the status of the resource of that name. -/
  replaceStatus : ClusterOperator → σ → Except StoreFault Unit × σ

/-- The calls of a store by name. -/
inductive StoreCall
  | get
  | create
  | update
  deriving DecidableEq, Repr

end OperatorHealth
