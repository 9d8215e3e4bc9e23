import OperatorHealth.Proofs.Publication.Outcome
import OperatorHealth.Proofs.Publication.Course
import OperatorHealth.Proofs.Publication.Status
import OperatorHealth.Store.Memory

/-!
# Cycles on a store that never fails

On a store that never fails, and gives back what was written to it last, a cycle leaves the resource
with what its report says, whether the resource was there or not, and also if it said so before and
is not written again.

## Main definitions

* `ReliableStore`: stores that do not fail for a name.
* `MemoryStore.Holds`: what a store in memory holds when it refuses nothing.

## Main results

* `ReliableStore.holds_publish`: what a cycle leaves.
* `MemoryStore.reliableStore`: stores in memory are reliable.
-/

namespace OperatorHealth

/-- The calls about a name do not fail, where `holds s status` says that the store `s` is in order
and has this status for the name, or no resource. -/
structure ReliableStore {σ : Type} [ResourceStore σ] (name : String)
    (holds : σ → Option ResourceStatus → Prop) : Prop where
  get_none {s : σ} : holds s none →
    ∃ n t, ResourceStore.get name s = (.error (.store (.notFound n)), t) ∧ holds t none
  get_some {s : σ} {status : ResourceStatus} : holds s (some status) →
    ∃ t, ResourceStore.get name s = (.ok ⟨name, status⟩, t) ∧ holds t (some status)
  create {s : σ} (status : ResourceStatus) : holds s none →
    ∃ t, ResourceStore.create ⟨name, status⟩ s = (.ok (), t) ∧ holds t (some status)
  replaceStatus {s : σ} {old : ResourceStatus} (status : ResourceStatus) : holds s (some old) →
    ∃ t, ResourceStore.replaceStatus ⟨name, status⟩ s = (.ok (), t) ∧ holds t (some status)

namespace ReliableStore

variable {σ : Type} [ResourceStore σ] {name : String} {holds : σ → Option ResourceStatus → Prop}
  {s : σ} {status? : Option ResourceStatus}

/-- A cycle leaves the resource with what its report says about being degraded. -/
theorem holds_publish (hstore : ReliableStore name holds) (hs : holds s status?)
    {report : StatusReport} {d : Condition} (hd : report.degradedConditions = [d])
    (release : String) (related : List ObjectReference) (now : Instant) :
    ∃ status c, holds (publish name release related now report s).2 (some status) ∧
      findCondition .degraded status.conditions = some c ∧ c.SaysAs d := by
  cases status? with
  | none =>
    obtain ⟨n, t, hget, ht⟩ := hstore.get_none hs
    obtain ⟨u, hcreate, hu⟩ := hstore.create (report.applyTo release related now {}) ht
    obtain ⟨c, hfind, hsays⟩ := report.findCondition_degraded_applyTo hd
    rw [publish_of_notFound hget, hcreate]
    exact ⟨_, c, hu, hfind, hsays⟩
  | some old =>
    obtain ⟨t, hget, ht⟩ := hstore.get_some hs
    obtain ⟨c, hfind, hsays⟩ := report.findCondition_degraded_applyTo hd
    cases heq : (report.applyTo release related now old).same old with
    | true =>
      rw [publish_of_same hget heq]
      exact ⟨old, c, ht, ResourceStatus.findCondition_eq_of_same heq hfind, hsays⟩
    | false =>
      obtain ⟨u, hupdate, hu⟩ := hstore.replaceStatus (report.applyTo release related now old) ht
      rw [publish_of_found hget heq, hupdate]
      exact ⟨_, c, hu, hfind, hsays⟩

end ReliableStore

/-! ### Stores in memory -/

namespace MemoryStore

/-- A store in memory refuses nothing, and has this status for a name, or no resource. -/
def Holds (name : String) (s : MemoryStore) (status? : Option ResourceStatus) : Prop :=
  (s.getFailure = none ∧ s.createFailure = none ∧ s.updateFailure = none) ∧
    s.find? name = status?.map fun status => ⟨name, status⟩

theorem reliableStore (name : String) : ReliableStore name (Holds name) where
  get_none {s} := by
    rintro ⟨hrefuses, hfind⟩
    refine ⟨name, s, ?_, hrefuses, hfind⟩
    simp [ResourceStore.get, get, hrefuses.1, hfind]
  get_some {s status} := by
    rintro ⟨hrefuses, hfind⟩
    refine ⟨s, ?_, hrefuses, hfind⟩
    simp [ResourceStore.get, get, hrefuses.1, hfind]
  create {s} status := by
    rintro ⟨hrefuses, hfind⟩
    refine ⟨{ s with objects := s.objects ++ [⟨name, status⟩], creates := s.creates + 1 }, ?_,
      hrefuses, ?_⟩
    · simp [ResourceStore.create, create, hrefuses.2.1, hfind]
    · have hnone : s.objects.find? (·.name == name) = none := hfind
      simp [find?, List.find?_append, hnone]
  replaceStatus {s old} status := by
    rintro ⟨hrefuses, hfind⟩
    refine ⟨{ s.put ⟨name, status⟩ with updates := s.updates + 1 }, ?_, hrefuses, ?_⟩
    · simp [ResourceStore.replaceStatus, replaceStatus, hrefuses.2.2, hfind]
    · exact find?_put_self s ⟨name, status⟩

end MemoryStore

end OperatorHealth
