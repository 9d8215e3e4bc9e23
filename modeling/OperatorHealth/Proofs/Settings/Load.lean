import OperatorHealth.Proofs.Settings.Grammar

/-!
# Settings that were loaded

Whatever needs the settings later can rely on what was checked when they were loaded: the operator
has a name, the queue has room for a report, and the names of the workloads are parsed once more as
they were then.

## Main definitions

* `Settings.IsUsable`: what can be relied on.

## Main results

* `Settings.isUsable_of_load`: settings that were loaded.
-/

namespace OperatorHealth.Settings

variable {release : Option String} {root : Document} {tree : FileTree} {path : String}
  {s : Settings}

/-- What those who use the settings rely on. -/
structure IsUsable (s : Settings) : Prop where
  operatorName : s.operatorName ≠ ""
  queueCapacity : 0 < s.queueCapacity
  names : ∀ text ∈ s.daemonSets ++ s.deployments, ∃ id, WorkloadName.parse? text = .ok id

theorem Denotes.isUsable (h : Denotes release root s) : s.IsUsable where
  operatorName := h.operatorName_ne
  queueCapacity := by
    rcases h.queueCapacity with ⟨-, hfive⟩ | ⟨d, -, -, hone, -⟩ <;> omega
  names := by
    intro text htext
    rcases List.mem_append.mp htext with htext | htext
    · rcases h.daemonSets with ⟨-, hnone⟩ | ⟨d, -, items, -, -, hparsed⟩
      · simp [hnone] at htext
      · exact hparsed text htext
    · rcases h.deployments with ⟨-, hnone⟩ | ⟨d, -, items, -, -, hparsed⟩
      · simp [hnone] at htext
      · exact hparsed text htext

/-- **Settings that were loaded can be relied on.** -/
theorem isUsable_of_load [DocumentFormat] (h : load release tree path = .ok s) : s.IsUsable := by
  obtain ⟨root, -, hroot⟩ := load_eq_ok_iff.mp h
  exact hroot.isUsable

end OperatorHealth.Settings
