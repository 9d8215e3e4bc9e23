import OperatorHealth.Store.Basic

/-!
# Stores in memory

A store in memory counts the writes that succeed. It can be told to refuse its next call of a
kind, once, with a message.

## Main definitions

* `MemoryStore`: the store.
* `MemoryStore.find?`, `MemoryStore.put`: looking at and arranging its resources, which counts as
  no call.
* `MemoryStore.refuseNext`: refusing the next call of a kind.
-/

namespace OperatorHealth

/-- Resources in memory, the refusals that wait, and the writes so far. -/
structure MemoryStore where
  objects : List ClusterOperator := []
  getFailure : Option String := none
  createFailure : Option String := none
  updateFailure : Option String := none
  creates : Nat := 0
  updates : Nat := 0
  deriving Repr

namespace MemoryStore

/-- The resource of a name. -/
def find? (s : MemoryStore) (name : String) : Option ClusterOperator :=
  s.objects.find? (·.name == name)

/-- The number of writes so far. -/
def writes (s : MemoryStore) : Nat := s.creates + s.updates

/-- A list of resources with one put in, for the one of its name if there is one. -/
def putIn (r : ClusterOperator) : List ClusterOperator → List ClusterOperator
  | [] => [r]
  | x :: xs => if x.name = r.name then r :: xs else x :: putIn r xs

/-- The store with a resource put in. -/
def put (s : MemoryStore) (r : ClusterOperator) : MemoryStore :=
  { s with objects := putIn r s.objects }

/-- The store that refuses its next call of a kind. -/
def refuseNext (s : MemoryStore) (call : StoreCall) (message : String) : MemoryStore :=
  match call with
  | .get => { s with getFailure := some message }
  | .create => { s with createFailure := some message }
  | .update => { s with updateFailure := some message }

/-! ### Calls -/

/-- The resource of a name. -/
def get (name : String) (s : MemoryStore) : Except StoreFault ClusterOperator × MemoryStore :=
  match s.getFailure with
  | some message => (.error (.store (.refused message)), { s with getFailure := none })
  | none =>
    match s.find? name with
    | some r => (.ok r, s)
    | none => (.error (.store (.notFound name)), s)

/-- Adds a resource, if none has its name. -/
def create (r : ClusterOperator) (s : MemoryStore) : Except StoreFault Unit × MemoryStore :=
  match s.createFailure with
  | some message => (.error (.store (.refused message)), { s with createFailure := none })
  | none =>
    match s.find? r.name with
    | some _ => (.error (.store (.alreadyExists r.name)), s)
    | none => (.ok (), { s with objects := s.objects ++ [r], creates := s.creates + 1 })

/-- Replaces the status of a resource, if one has its name. -/
def replaceStatus (r : ClusterOperator) (s : MemoryStore) :
    Except StoreFault Unit × MemoryStore :=
  match s.updateFailure with
  | some message => (.error (.store (.refused message)), { s with updateFailure := none })
  | none =>
    match s.find? r.name with
    | some old =>
      (.ok (), { s.put { old with status := r.status } with updates := s.updates + 1 })
    | none => (.error (.store (.notFound r.name)), s)

instance : ResourceStore MemoryStore := ⟨get, create, replaceStatus⟩

end MemoryStore

end OperatorHealth
