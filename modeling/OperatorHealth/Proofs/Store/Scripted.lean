import OperatorHealth.Proofs.Store.Memory
import OperatorHealth.Store.Disturbed

/-!
# Stores that fail by a script

A script says for each coming call of a store whether it is answered in place of the store, and
with what, or gets through. Any pattern of failing calls is a script, also one with several
failures in one cycle. A log records the calls and how they ended.

## Main definitions

* `CallRecord`: one call in the log.
* `ScriptedStore`: a store with its script and its log.
* `Injection`: making coming calls of a store in memory fail.

## Main results

* `ScriptedStore.get_cases`, `ScriptedStore.create_cases`, `ScriptedStore.replaceStatus_cases`: the
  calls of a store in memory under a script.
-/

namespace OperatorHealth

/-- A call that was made on a store, about a resource, with the fault it ended with if it did. -/
structure CallRecord where
  call : StoreCall
  name : String
  fault : Option StoreFault
  deriving DecidableEq, Repr

/-- Whether a call has written a resource. -/
def CallRecord.isWrite (k : CallRecord) : Bool := k.call != .get && k.fault.isNone

/-- A store, what is to happen to its coming calls, and the calls so far. After the end of the
script all calls get through. -/
structure ScriptedStore (σ : Type) where
  inner : σ
  script : List (Option Disturbance) := []
  log : List CallRecord := []

/-- The fault that a call ended with. -/
def faultOf {α : Type} : Except StoreFault α → Option StoreFault
  | .ok _ => none
  | .error f => some f

namespace ScriptedStore

variable {σ α : Type}

/-- The answer to a call about a name, and the store behind it after that. -/
def answer (name : String) (run : σ → Except StoreFault α × σ) (s : ScriptedStore σ) :
    Except StoreFault α × σ :=
  match s.script.head?.join with
  | some d => (.error (d.fault name), s.inner)
  | none => run s.inner

/-- Makes a call about a name. -/
def perform (call : StoreCall) (name : String) (run : σ → Except StoreFault α × σ)
    (s : ScriptedStore σ) : Except StoreFault α × ScriptedStore σ :=
  let result := s.answer name run
  (result.1,
    { inner := result.2
      script := s.script.tail
      log := s.log ++ [⟨call, name, faultOf result.1⟩] })

instance [ResourceStore σ] : ResourceStore (ScriptedStore σ) where
  get name := perform .get name (ResourceStore.get name)
  create r := perform .create r.name (ResourceStore.create r)
  replaceStatus r := perform .update r.name (ResourceStore.replaceStatus r)

/-- A call is answered in place of the store, or by the store behind. -/
theorem perform_cases (call : StoreCall) (name : String) (run : σ → Except StoreFault α × σ)
    (s : ScriptedStore σ) :
    (∃ fault t, perform call name run s = (.error fault, t) ∧ t.inner = s.inner ∧
      t.log = s.log ++ [⟨call, name, some fault⟩]) ∨
    ∃ t, perform call name run s = ((run s.inner).1, t) ∧ t.inner = (run s.inner).2 ∧
      t.log = s.log ++ [⟨call, name, faultOf (run s.inner).1⟩] := by
  unfold perform answer
  cases s.script.head?.join with
  | some d => exact .inl ⟨d.fault name, _, rfl, rfl, rfl⟩
  | none => exact .inr ⟨_, rfl, rfl, rfl⟩

/-! ### Stores in memory under a script -/

open MemoryStore (SameContents)

variable {s : ScriptedStore MemoryStore}

theorem get_cases (name : String) (s : ScriptedStore MemoryStore) :
    (∃ r t, s.inner.find? name = some r ∧ ResourceStore.get name s = (.ok r, t) ∧
      t.inner = s.inner ∧ t.log = s.log ++ [⟨.get, name, none⟩]) ∨
    ∃ fault t, ResourceStore.get name s = (.error fault, t) ∧ SameContents t.inner s.inner ∧
      t.log = s.log ++ [⟨.get, name, some fault⟩] := by
  rcases perform_cases .get name (MemoryStore.get name) s with
    ⟨fault, t, hget, hinner, hlog⟩ | ⟨t, hget, hinner, hlog⟩
  · exact .inr ⟨fault, t, hget, hinner ▸ .refl _, hlog⟩
  · rcases MemoryStore.get_cases name s.inner with ⟨r, hr, hrun⟩ | ⟨fault, m, hrun, hm⟩ <;>
      rw [hrun] at hget hinner hlog
    · exact .inl ⟨r, t, hr, hget, hinner, hlog⟩
    · exact .inr ⟨fault, t, hget, hinner ▸ hm, hlog⟩

theorem create_cases (r : ClusterOperator) (s : ScriptedStore MemoryStore) :
    (∃ t, s.inner.find? r.name = none ∧ ResourceStore.create r s = (.ok (), t) ∧
      t.inner = { s.inner with
        objects := s.inner.objects ++ [r], creates := s.inner.creates + 1 } ∧
      t.log = s.log ++ [⟨.create, r.name, none⟩]) ∨
    ∃ fault t, ResourceStore.create r s = (.error fault, t) ∧ SameContents t.inner s.inner ∧
      t.log = s.log ++ [⟨.create, r.name, some fault⟩] := by
  rcases perform_cases .create r.name (MemoryStore.create r) s with
    ⟨fault, t, hcreate, hinner, hlog⟩ | ⟨t, hcreate, hinner, hlog⟩
  · exact .inr ⟨fault, t, hcreate, hinner ▸ .refl _, hlog⟩
  · rcases MemoryStore.create_cases r s.inner with ⟨hr, hrun⟩ | ⟨fault, m, hrun, hm⟩ <;>
      rw [hrun] at hcreate hinner hlog
    · exact .inl ⟨t, hr, hcreate, hinner, hlog⟩
    · exact .inr ⟨fault, t, hcreate, hinner ▸ hm, hlog⟩

theorem replaceStatus_cases (r : ClusterOperator) (s : ScriptedStore MemoryStore) :
    (∃ old t, s.inner.find? r.name = some old ∧ ResourceStore.replaceStatus r s = (.ok (), t) ∧
      t.inner = { s.inner.put { old with status := r.status } with
        updates := s.inner.updates + 1 } ∧
      t.log = s.log ++ [⟨.update, r.name, none⟩]) ∨
    ∃ fault t, ResourceStore.replaceStatus r s = (.error fault, t) ∧
      SameContents t.inner s.inner ∧ t.log = s.log ++ [⟨.update, r.name, some fault⟩] := by
  rcases perform_cases .update r.name (MemoryStore.replaceStatus r) s with
    ⟨fault, t, hupdate, hinner, hlog⟩ | ⟨t, hupdate, hinner, hlog⟩
  · exact .inr ⟨fault, t, hupdate, hinner ▸ .refl _, hlog⟩
  · rcases MemoryStore.replaceStatus_cases r s.inner with
      ⟨old, hold, hrun⟩ | ⟨fault, m, hrun, hm⟩ <;>
      rw [hrun] at hupdate hinner hlog
    · exact .inl ⟨old, t, hold, hupdate, hinner, hlog⟩
    · exact .inr ⟨fault, t, hupdate, hinner ▸ hm, hlog⟩

end ScriptedStore

/-! ### Making calls fail -/

/-- A way to make coming calls of a store in memory fail: by another script, or by refusing the
next call of a kind. -/
inductive Injection
  | script (coming : List (Option Disturbance))
  | refuse (call : StoreCall) (message : String)
  deriving DecidableEq, Repr

namespace Injection

/-- The store after an injection. -/
def apply (j : Injection) (s : ScriptedStore MemoryStore) : ScriptedStore MemoryStore :=
  match j with
  | .script coming => { s with script := coming }
  | .refuse call message => { s with inner := s.inner.refuseNext call message }

/-- An injection leaves alone what is stored and counted. -/
theorem sameContents_apply (j : Injection) (s : ScriptedStore MemoryStore) :
    (j.apply s).inner.SameContents s.inner := by
  cases j with
  | script coming => exact .refl _
  | refuse call message => exact MemoryStore.refuseNext_sameContents s.inner call message

end Injection

end OperatorHealth
