import OperatorHealth.Store.Basic

/-!
# Stores with a disturbance

A disturbance waits for the next call of a kind and answers it in place of the store, once. The
store behind it does not see that call. A new disturbance takes the place of one that still waits.

## Main definitions

* `Disturbance`: what answers a call in place of the store.
* `DisturbedStore`: a store with the disturbance that waits.
* `DisturbedStore.arm`: setting up a disturbance.
-/

namespace OperatorHealth

/-- What answers a call in place of the store. -/
inductive Disturbance
  /-- A failure that is none of the store's own. -/
  | foreign (message : String)
  /-- The assertion that no resource has the name of the call. -/
  | notFound
  /-- A refusal by the store. -/
  | refused (message : String)
  deriving DecidableEq, Repr

/-- The fault that a disturbance raises in a call about a name. -/
def Disturbance.fault (name : String) : Disturbance → StoreFault
  | foreign message => .foreign message
  | notFound => .store (.notFound name)
  | refused message => .store (.refused message)

/-- A store and the disturbance that waits. -/
structure DisturbedStore (σ : Type) where
  inner : σ
  armed : Option (StoreCall × Disturbance) := none

namespace DisturbedStore

variable {σ : Type}

/-- The store with a disturbance for its next call of a kind. -/
def arm (s : DisturbedStore σ) (call : StoreCall) (d : Disturbance) : DisturbedStore σ :=
  { s with armed := some (call, d) }

/-- Makes a call about a name, unless a disturbance waits for it. -/
def disturb {α : Type} (call : StoreCall) (name : String)
    (run : σ → Except StoreFault α × σ) (s : DisturbedStore σ) :
    Except StoreFault α × DisturbedStore σ :=
  match s.armed with
  | some (c, d) =>
    if c = call then (.error (d.fault name), { s with armed := none })
    else ((run s.inner).1, { s with inner := (run s.inner).2 })
  | none => ((run s.inner).1, { s with inner := (run s.inner).2 })

instance [ResourceStore σ] : ResourceStore (DisturbedStore σ) where
  get name := disturb .get name (ResourceStore.get name)
  create r := disturb .create r.name (ResourceStore.create r)
  replaceStatus r := disturb .update r.name (ResourceStore.replaceStatus r)

end DisturbedStore

end OperatorHealth
