import Mathlib.Data.List.Perm.Basic
import OperatorHealth.Proofs.Workload.Annotations
import OperatorHealth.Proofs.Workload.Name
import OperatorHealth.Workload.Static

/-!
# Assignments of states to names

A table that states are put into one after another holds them all, if they are for different names,
and gives back each for its name.

## Main definitions

* `Assignment`: states of workloads for different names.
* `WorkloadTable.holding`: the table that states are put into.

## Main results

* `WorkloadTable.find?_perm`: what is found does not depend on the order of the states.
* `WorkloadTable.daemonSet_holding`, `WorkloadTable.deployment_holding`: what a table gives back.
-/

namespace OperatorHealth

/-- States of workloads for different names, each of which can be parsed. -/
structure Assignment (α : Type) where
  entries : List (WorkloadName × α)
  nodup : (entries.map Prod.fst).Nodup
  isParsed : ∀ e ∈ entries, e.1.IsParsed

namespace WorkloadTable

variable {α : Type} {id : WorkloadName} {a : α} {es fs : List (WorkloadName × α)}

/-! ### Looking up a name -/

theorem find?_cons (e : WorkloadName × α) :
    find? id (e :: es) = if e.1 = id then some e.2 else find? id es := by
  by_cases h : e.1 = id <;> simp [find?, h]

/-- Among states for different names, a state is found if it is there. -/
theorem find?_eq_some_iff (h : (es.map Prod.fst).Nodup) :
    find? id es = some a ↔ (id, a) ∈ es :=
  find?_map_snd_eq_some_iff h

/-- What is found does not depend on the order. -/
theorem find?_perm (hperm : es.Perm fs) (h : (fs.map Prod.fst).Nodup) :
    find? id es = find? id fs := by
  ext a
  rw [find?_eq_some_iff ((hperm.symm.map Prod.fst).nodup h), find?_eq_some_iff h, hperm.mem_iff]

/-! ### Tables of states that were put in -/

/-- The states after one was put in. -/
def put (es : List (WorkloadName × α)) (e : WorkloadName × α) : List (WorkloadName × α) :=
  e :: erase e.1 es

/-- A state for a new name takes no other away. -/
theorem put_eq_cons {e : WorkloadName × α} (h : e.1 ∉ es.map Prod.fst) : put es e = e :: es := by
  have hkept : erase e.1 es = es := by
    refine List.filter_eq_self.mpr ?_
    rintro f hf
    have hne : f.1 ≠ e.1 := fun heq => h (heq ▸ List.mem_map_of_mem hf)
    simpa using hne
  rw [put, hkept]

theorem perm_foldl_put (h : ((fs ++ es).map Prod.fst).Nodup) :
    (es.foldl put fs).Perm (fs ++ es) :=
  perm_foldl_of_new_keys (f := id) (fun _ _ hnew => .of_eq (put_eq_cons hnew)) h

/-- The table that two assignments are put into, state by state. -/
def holding (daemonSets : Assignment ObservedDaemonSet)
    (deployments : Assignment ObservedDeployment) : WorkloadTable :=
  deployments.entries.foldl (fun t e => t.withDeployment e.1 e.2)
    (daemonSets.entries.foldl (fun t e => t.withDaemonSet e.1 e.2) {})

theorem daemonSets_foldl_withDaemonSet (es : List (WorkloadName × ObservedDaemonSet))
    (t : WorkloadTable) : es.foldl (fun t e => t.withDaemonSet e.1 e.2) t =
      { t with daemonSets := es.foldl put t.daemonSets } := by
  induction es generalizing t with
  | nil => rfl
  | cons e es ih => rw [List.foldl_cons, ih]; rfl

theorem deployments_foldl_withDeployment (es : List (WorkloadName × ObservedDeployment))
    (t : WorkloadTable) : es.foldl (fun t e => t.withDeployment e.1 e.2) t =
      { t with deployments := es.foldl put t.deployments } := by
  induction es generalizing t with
  | nil => rfl
  | cons e es ih => rw [List.foldl_cons, ih]; rfl

theorem holding_eq (daemonSets : Assignment ObservedDaemonSet)
    (deployments : Assignment ObservedDeployment) : holding daemonSets deployments =
      ⟨daemonSets.entries.foldl put [], deployments.entries.foldl put []⟩ := by
  rw [holding, daemonSets_foldl_withDaemonSet, deployments_foldl_withDeployment]

theorem find?_foldl_put (assignment : Assignment α) :
    find? id (assignment.entries.foldl put []) = find? id assignment.entries :=
  find?_perm (perm_foldl_put assignment.nodup) assignment.nodup

/-! ### Reading a table -/

theorem toOption_daemonSet (t : WorkloadTable) :
    (t.inspector.daemonSet id).toOption = find? id t.daemonSets := by
  simp only [inspector]
  cases find? id t.daemonSets <;> rfl

theorem toOption_deployment (t : WorkloadTable) :
    (t.inspector.deployment id).toOption = find? id t.deployments := by
  simp only [inspector]
  cases find? id t.deployments <;> rfl

variable (daemonSets : Assignment ObservedDaemonSet) (deployments : Assignment ObservedDeployment)

theorem daemonSet_holding : ((holding daemonSets deployments).inspector.daemonSet id).toOption =
    find? id daemonSets.entries := by
  rw [toOption_daemonSet, holding_eq, find?_foldl_put]

theorem deployment_holding : ((holding daemonSets deployments).inspector.deployment id).toOption =
    find? id deployments.entries := by
  rw [toOption_deployment, holding_eq, find?_foldl_put]

end WorkloadTable

end OperatorHealth
