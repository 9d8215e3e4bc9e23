import OperatorHealth.Proofs.Document.Reading
import OperatorHealth.Workload.Snapshot

/-!
# Entries of a snapshot

An entry of a snapshot tells the state of a workload: numbers under their keys, zero if they are
left out, and labels, none if they are left out. Converting an entry gives the state that it tells,
and fails if it tells none.

## Main definitions

* `StateLayout`: what is written for the states of a kind.
* `StateLayout.Tells`: the states that an entry tells.

## Main results

* `Snapshot.readDaemonSet_eq_ok_iff`, `Snapshot.readDeployment_eq_ok_iff`: converting an entry.
-/

namespace OperatorHealth

open Document

/-! ### Layouts -/

/-- What is written for the states of a kind of workload: numbers under their keys, and labels. -/
structure StateLayout (α : Type) where
  kind : WorkloadKind
  numbers : α → List (String × Int)
  labels : α → Annotations

/-- What is written for daemon sets. -/
def ObservedDaemonSet.layout : StateLayout ObservedDaemonSet where
  kind := .daemonSet
  numbers s :=
    [("generation", s.generation.toInt), ("observed_generation", s.observedGeneration.toInt),
      ("desired", s.desired.toInt), ("updated", s.updated.toInt),
      ("available", s.available.toInt), ("unavailable", s.unavailable.toInt)]
  labels := ObservedDaemonSet.annotations

/-- What is written for deployments. -/
def ObservedDeployment.layout : StateLayout ObservedDeployment where
  kind := .deployment
  numbers s :=
    [("generation", s.generation.toInt), ("observed_generation", s.observedGeneration.toInt),
      ("replicas", s.replicas.toInt), ("updated_replicas", s.updated.toInt),
      ("available_replicas", s.available.toInt), ("unavailable_replicas", s.unavailable.toInt)]
  labels := ObservedDeployment.annotations

namespace Snapshot

/-! ### Fields -/

variable {d : Document}

theorem fieldOr_eq_ok_iff {α : Type} {default a : α} {convert : Document → Except NodeError α}
    {key : String} : fieldOr default convert key d = .ok a ↔
      d.MayHold [key] (a = default) (convert · = .ok a) := by
  simp only [fieldOr, Except.bind_eq_ok, MayHold, ← field?_eq_ok_some_iff,
    ← field?_eq_ok_none_iff, Option.exists, Except.ok.injEq, eq_comm (a := default)]

theorem fieldOr_int64_eq_ok_iff {key : String} {n : Int64} :
    fieldOr 0 Document.int64 key d = .ok n ↔
      d.MayHold [key] (n.toInt = 0) (·.Spells n.toInt) := by
  have hzero : n = 0 ↔ n.toInt = 0 := Int64.toInt_inj.symm
  simp only [fieldOr_eq_ok_iff, int64_eq_ok_iff, hzero]

theorem fieldOr_int32_eq_ok_iff {key : String} {n : Int32} :
    fieldOr 0 Document.int32 key d = .ok n ↔
      d.MayHold [key] (n.toInt = 0) (·.Spells n.toInt) := by
  have hzero : n = 0 ↔ n.toInt = 0 := Int32.toInt_inj.symm
  simp only [fieldOr_eq_ok_iff, int32_eq_ok_iff, hzero]

/-- A node tells labels: a mapping from the texts of their keys to their texts. -/
def TellsLabels (a : Annotations) (d : Document) : Prop :=
  ∃ es ps, d = mapping es ∧ List.Forall₂ (fun e p => e.1.Says p.1 ∧ e.2.Says p.2) es ps ∧
    Annotations.ofList ps = a

theorem annotations_eq_ok_iff {a : Annotations} : annotations d = .ok a ↔
    d.MayHold ["annotations"] (a = .empty) (TellsLabels a) := by
  have hlabels (v : Document) : v.textMap.map Annotations.ofList = .ok a ↔ TellsLabels a v := by
    have hmap : v.textMap.map Annotations.ofList = .ok a ↔
        ∃ ps, v.textMap = .ok ps ∧ Annotations.ofList ps = a := by
      cases v.textMap <;> simp [Except.map]
    simp only [hmap, textMap_eq_ok_iff, TellsLabels]
    grind
  simp only [annotations, fieldOr_eq_ok_iff, hlabels]

end Snapshot

namespace StateLayout

variable {α : Type}

/-- An entry tells a state: each number is spelled out under its key, or left out and zero, and the
labels are there, or left out and there are none. -/
structure Tells (l : StateLayout α) (es : List (Document × Document)) (state : α) : Prop where
  numbers : ∀ q ∈ l.numbers state, (mapping es).MayHold [q.1] (q.2 = 0) (·.Spells q.2)
  labels : (mapping es).MayHold ["annotations"] (l.labels state = .empty)
    (Snapshot.TellsLabels (l.labels state))

end StateLayout

namespace Snapshot

variable {es : List (Document × Document)}

theorem readDaemonSet_eq_ok_iff {state : ObservedDaemonSet} :
    readDaemonSet (mapping es) = .ok state ↔ ObservedDaemonSet.layout.Tells es state := by
  simp only [readDaemonSet, Except.bind_eq_ok, Except.pure_eq_ok, fieldOr_int64_eq_ok_iff,
    fieldOr_int32_eq_ok_iff, annotations_eq_ok_iff]
  constructor
  · rintro ⟨generation, hgeneration, observed, hobserved, desired, hdesired, updated, hupdated,
      available, havailable, unavailable, hunavailable, labels, hlabels, rfl⟩
    refine ⟨?_, hlabels⟩
    simp only [ObservedDaemonSet.layout, List.forall_mem_cons]
    exact ⟨hgeneration, hobserved, hdesired, hupdated, havailable, hunavailable, by simp⟩
  · rintro ⟨hnumbers, hlabels⟩
    simp only [ObservedDaemonSet.layout, List.forall_mem_cons] at hnumbers
    obtain ⟨hgeneration, hobserved, hdesired, hupdated, havailable, hunavailable, -⟩ := hnumbers
    exact ⟨_, hgeneration, _, hobserved, _, hdesired, _, hupdated, _, havailable, _, hunavailable,
      _, hlabels, rfl⟩

theorem readDeployment_eq_ok_iff {state : ObservedDeployment} :
    readDeployment (mapping es) = .ok state ↔ ObservedDeployment.layout.Tells es state := by
  simp only [readDeployment, Except.bind_eq_ok, Except.pure_eq_ok, fieldOr_int64_eq_ok_iff,
    fieldOr_int32_eq_ok_iff, annotations_eq_ok_iff]
  constructor
  · rintro ⟨generation, hgeneration, observed, hobserved, replicas, hreplicas, updated, hupdated,
      available, havailable, unavailable, hunavailable, labels, hlabels, rfl⟩
    refine ⟨?_, hlabels⟩
    simp only [ObservedDeployment.layout, List.forall_mem_cons]
    exact ⟨hgeneration, hobserved, hreplicas, hupdated, havailable, hunavailable, by simp⟩
  · rintro ⟨hnumbers, hlabels⟩
    simp only [ObservedDeployment.layout, List.forall_mem_cons] at hnumbers
    obtain ⟨hgeneration, hobserved, hreplicas, hupdated, havailable, hunavailable, -⟩ := hnumbers
    exact ⟨_, hgeneration, _, hobserved, _, hreplicas, _, hupdated, _, havailable, _, hunavailable,
      _, hlabels, rfl⟩

end Snapshot

end OperatorHealth
