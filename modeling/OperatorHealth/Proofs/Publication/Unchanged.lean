import OperatorHealth.Proofs.Publication.Status
import OperatorHealth.Proofs.Resource.Comparison

/-!
# Statuses in which nothing has changed

A cycle compares the status that it has worked out with the one that it has found. The comparison
looks at the first condition of each kind alone, and overlooks a difference behind it. Yet it misses
no change: merges touch no other condition of a kind than the first one, and lose no kind, so what
they make of a list differs from it in what the comparison looks at, or not at all.

## Main definitions

* `KeepsBehind`: a list that has changed in the first conditions of its kinds alone, or has grown.

## Main results

* `StatusReport.keepsBehind_conditionsAfter`: what a cycle makes of a list of conditions.
* `KeepsBehind.eq_of_sameConditions`: such a list compares equal only if nothing has changed.
* `StatusReport.same_applyTo_iff`: when the status that a cycle works out says what was there
  before.
-/

namespace OperatorHealth

variable {k : ConditionKind} {c : Condition} {cs ds es : List Condition} {now : Instant}
  {report : StatusReport} {release : String} {related : List ObjectReference}
  {old : ResourceStatus}

/-! ### What merges leave behind the first condition of a kind -/

/-- Lists with the same kinds in the same places, and the same conditions of each kind, are the
same. -/
theorem eq_of_filter_kind_eq (hkinds : cs.map (·.kind) = ds.map (·.kind))
    (h : ∀ k, cs.filter (·.kind = k) = ds.filter (·.kind = k)) : cs = ds := by
  induction cs generalizing ds with
  | nil => exact (List.map_eq_nil_iff.mp hkinds.symm).symm
  | cons c cs ih =>
    cases ds with
    | nil => cases hkinds
    | cons d ds =>
      obtain ⟨hkind, hrest⟩ := List.cons.inj hkinds
      have hfirst := h c.kind
      rw [List.filter_cons_of_pos (by simp), List.filter_cons_of_pos (by simp [hkind])] at hfirst
      obtain rfl : c = d := (List.cons.inj hfirst).1
      refine congrArg (c :: ·) (ih hrest fun k => ?_)
      have hk := h k
      rw [List.filter_cons, List.filter_cons] at hk
      split at hk
      · exact (List.cons.inj hk).2
      · exact hk

/-- Lists with the same conditions of each kind are the same up to order. -/
theorem perm_of_filter_kind_eq
    (h : ∀ k, cs.filter (·.kind = k) = ds.filter (·.kind = k)) : cs.Perm ds := by
  refine List.perm_iff_count.mpr fun c => ?_
  have hcount (es : List Condition) : es.count c = (es.filter (·.kind = c.kind)).count c :=
    (List.count_filter (by simp)).symm
  rw [hcount cs, hcount ds, h]

/-- The list `ds` has the kinds of `cs` in their places, and maybe more behind them, and its
conditions of a kind are those of `cs` but for the first one. -/
structure KeepsBehind (cs ds : List Condition) : Prop where
  kinds : cs.map (·.kind) <+: ds.map (·.kind)
  behind : ∀ k, (ds.filter (·.kind = k)).tail = (cs.filter (·.kind = k)).tail

namespace KeepsBehind

theorem refl (cs : List Condition) : KeepsBehind cs cs := ⟨List.prefix_refl _, fun _ => rfl⟩

theorem trans (h : KeepsBehind cs ds) (h' : KeepsBehind ds es) : KeepsBehind cs es where
  kinds := h.kinds.trans h'.kinds
  behind k := (h'.behind k).trans (h.behind k)

/-- The comparison looks at the first condition of each kind, so it finds what has changed. -/
theorem eq_of_sameConditions (h : KeepsBehind cs ds) (hsame : sameConditions ds cs = true) :
    ds = cs := by
  have hkeyed : SameByKey (·.kind) ds cs := sameConditions_iff.mp hsame
  have hkinds : cs.map (·.kind) = ds.map (·.kind) :=
    h.kinds.eq_of_length (by simp [hkeyed.length_eq])
  refine eq_of_filter_kind_eq hkinds.symm fun k => ?_
  have hbehind := h.behind k
  have hfound : findCondition k cs = (cs.filter (·.kind = k)).head? := (List.head?_filter ..).symm
  cases hds : ds.filter (·.kind = k) with
  | nil =>
    have hnone : k ∉ cs.map (·.kind) := by
      rw [hkinds, List.mem_map]
      rintro ⟨d, hd, hk⟩
      exact List.not_mem_nil (hds ▸ List.mem_filter.mpr ⟨hd, by simpa using hk⟩)
    refine (List.filter_eq_nil_iff.mpr fun c hc hk => hnone ?_).symm
    exact List.mem_map.mpr ⟨c, hc, by simpa using hk⟩
  | cons d rest =>
    have hmem : d ∈ ds.filter (·.kind = k) := hds ▸ List.mem_cons_self ..
    obtain ⟨hd, rfl⟩ : d ∈ ds ∧ d.kind = k := by simpa using hmem
    have hfirst : (cs.filter (·.kind = d.kind)).head? = some d :=
      hfound.symm.trans (hkeyed.find?_eq d hd)
    rw [hds, List.tail_cons] at hbehind
    rw [hbehind]
    exact List.cons_head?_tail hfirst

end KeepsBehind

/-- A merge changes the first condition of its kind, or adds one. -/
theorem keepsBehind_mergeCondition (now : Instant) (c : Condition) (cs : List Condition) :
    KeepsBehind cs (mergeCondition now c cs) where
  kinds := by
    rw [map_kind_mergeCondition]
    split
    · exact List.prefix_refl _
    · exact List.prefix_append ..
  behind k := by
    by_cases hk : c.kind = k
    · subst hk
      induction cs with
      | nil => simp [mergeCondition]
      | cons x cs ih =>
        rw [mergeCondition]
        by_cases hx : x.kind = c.kind
        · simp [hx]
        · simpa [hx] using ih
    · rw [filter_mergeCondition now cs (fun k' => decide (k' = k)) (by simpa using hk)]

theorem StatusReport.keepsBehind_conditionsAfter (report : StatusReport) (now : Instant)
    (cs : List Condition) : KeepsBehind cs (report.conditionsAfter now cs) := by
  have hmerged : KeepsBehind cs (mergeConditions now report.conditions cs) :=
    mergeConditions_induction (P := KeepsBehind cs) report.conditions (.refl cs)
      fun c _ _ h => h.trans (keepsBehind_mergeCondition now c _)
  refine KeepsBehind.trans ?_ (keepsBehind_mergeCondition now upgradeAllowed _)
  unfold guardProgress
  split
  · exact hmerged.trans (keepsBehind_mergeCondition now startingUp _)
  · exact hmerged

/-! ### The status that a cycle works out -/

theorem sameVersions_singleton {v : OperandVersion} {vs : List OperandVersion} :
    sameVersions [v] vs = true ↔ vs = [v] := by
  rcases vs with - | ⟨w, - | ⟨x, vs⟩⟩
  · simp [sameVersions]
  · by_cases hname : w.name = v.name
    · simp [sameVersions, findVersion, hname]
    · have hne : w ≠ v := fun h => hname (h ▸ rfl)
      simp [sameVersions, findVersion, hname, hne]
  · simp [sameVersions]

theorem sameVersions_publishedVersions {reached : Bool} {vs : List OperandVersion} :
    sameVersions (publishedVersions release reached) vs = true ↔
      vs = publishedVersions release reached := by
  unfold publishedVersions
  split
  · exact sameVersions_singleton
  · cases vs <;> simp [sameVersions]

/-- **The status that a cycle works out says what was there before** just if it is what was there
before, up to the order of the references, and its conditions are not ambiguous. -/
theorem StatusReport.same_applyTo_iff : (report.applyTo release related now old).same old = true ↔
    (report.applyTo release related now old).conditions = old.conditions ∧
    (report.applyTo release related now old).versions = old.versions ∧
    (report.applyTo release related now old).relatedObjects.Perm old.relatedObjects ∧
    IsUnambiguous (·.kind) old.conditions := by
  have hconditions : sameConditions (report.conditionsAfter now old.conditions) old.conditions =
      true ↔ report.conditionsAfter now old.conditions = old.conditions ∧
        IsUnambiguous (·.kind) old.conditions := by
    constructor
    · intro h
      have heq := (report.keepsBehind_conditionsAfter now old.conditions).eq_of_sameConditions h
      rw [heq] at h
      exact ⟨heq, sameByKey_self_iff.mp (sameConditions_iff.mp h)⟩
    · rintro ⟨heq, hunambiguous⟩
      rw [heq]
      exact sameConditions_iff.mpr (sameByKey_self_iff.mpr hunambiguous)
  simp only [ResourceStatus.same, applyTo, Bool.and_eq_true, hconditions,
    sameVersions_publishedVersions, sameReferences_iff_perm]
  constructor
  · rintro ⟨⟨⟨heq, hunambiguous⟩, hversions⟩, hrelated⟩
    exact ⟨heq, hversions.symm, hrelated, hunambiguous⟩
  · rintro ⟨heq, hversions, hrelated, hunambiguous⟩
    exact ⟨⟨⟨heq, hunambiguous⟩, hversions.symm⟩, hrelated⟩

end OperatorHealth
