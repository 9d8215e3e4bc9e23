import OperatorHealth.Proofs.Resource.Codec
import OperatorHealth.Proofs.Resource.Comparison

/-!
# The laws of structural equality

The comparison of two statuses looks up the conditions of the first one by their kinds in the second
one, and the versions by their names. It is transitive, and never depends on the order in the first
status. A status says the same as itself if its conditions of one kind are equal, and so are its
versions of one name; then, and only then, the order in the second status does not matter either.
Where no kind and no name occurs twice, the comparison is the equality of the three lists up to
order, so it is an equivalence. It then tells whether the same is found in both for each kind and
each name, and each reference occurs equally often.

A document may hold two conditions of one kind that differ. The status that is read from it does not
say the same as itself, and the comparison of two such statuses depends on which comes first.

## Main definitions

* `ResourceStatus.IsKeyed`, `ResourceStatus.IsUnambiguous`: no key occurs twice, or only with equal
  items.
* `ResourceStatus.IsRearrangement`: two statuses hold the same in any order.

## Main results

* `ResourceStatus.same_iff_isRearrangement`: statuses in which no key occurs twice.
* `ResourceStatus.equality_laws`: all laws of the comparison of statuses.
* `ResourceStatus.same_iff_perm`: the comparison against what the statuses hold.
-/

namespace OperatorHealth

namespace ResourceStatus

variable {a b c : ResourceStatus}

theorem same_iff : a.same b = true ↔ SameByKey (·.kind) a.conditions b.conditions ∧
    SameByKey (·.name) a.versions b.versions ∧ a.relatedObjects.Perm b.relatedObjects := by
  rw [same, Bool.and_eq_true, Bool.and_eq_true, sameConditions_iff, sameVersions_iff,
    sameReferences_iff_perm, and_assoc]

/-- No kind of condition and no name of a version occurs twice. -/
structure IsKeyed (a : ResourceStatus) : Prop where
  kinds : (a.conditions.map (·.kind)).Nodup
  names : (a.versions.map (·.name)).Nodup

instance (a : ResourceStatus) : Decidable a.IsKeyed :=
  decidable_of_iff ((a.conditions.map (·.kind)).Nodup ∧ (a.versions.map (·.name)).Nodup)
    ⟨fun h => ⟨h.1, h.2⟩, fun h => ⟨h.kinds, h.names⟩⟩

/-- Conditions of one kind are equal, and so are versions of one name. -/
structure IsUnambiguous (a : ResourceStatus) : Prop where
  conditions : OperatorHealth.IsUnambiguous (·.kind) a.conditions
  versions : OperatorHealth.IsUnambiguous (·.name) a.versions

theorem IsKeyed.isUnambiguous (h : a.IsKeyed) : a.IsUnambiguous :=
  ⟨isUnambiguous_of_nodup h.kinds, isUnambiguous_of_nodup h.names⟩

/-- Two statuses hold the same conditions, versions and references, in any order. -/
structure IsRearrangement (a b : ResourceStatus) : Prop where
  conditions : a.conditions.Perm b.conditions
  versions : a.versions.Perm b.versions
  related : a.relatedObjects.Perm b.relatedObjects

namespace IsRearrangement

theorem refl (a : ResourceStatus) : a.IsRearrangement a := ⟨.refl _, .refl _, .refl _⟩

theorem symm (h : a.IsRearrangement b) : b.IsRearrangement a :=
  ⟨h.conditions.symm, h.versions.symm, h.related.symm⟩

theorem isUnambiguous (h : a.IsRearrangement b) (ha : a.IsUnambiguous) : b.IsUnambiguous :=
  ⟨ha.conditions.perm h.conditions, ha.versions.perm h.versions⟩

theorem isKeyed (h : a.IsRearrangement b) (ha : a.IsKeyed) : b.IsKeyed :=
  ⟨(h.conditions.map _).nodup_iff.mp ha.kinds, (h.versions.map _).nodup_iff.mp ha.names⟩

end IsRearrangement

/-! ### The laws -/

theorem same_self_iff : a.same a = true ↔ a.IsUnambiguous := by
  rw [same_iff, sameByKey_self_iff, sameByKey_self_iff]
  exact ⟨fun h => ⟨h.1, h.2.1⟩, fun h => ⟨h.conditions, h.versions, .refl _⟩⟩

/-- Where no key occurs twice, statuses say the same exactly if they hold the same in any order. -/
theorem same_iff_isRearrangement (ha : a.IsKeyed) : a.same b = true ↔ a.IsRearrangement b := by
  rw [same_iff, sameByKey_iff_perm ha.kinds, sameByKey_iff_perm ha.names]
  exact ⟨fun h => ⟨h.1, h.2.1, h.2.2⟩, fun h => ⟨h.conditions, h.versions, h.related⟩⟩

theorem same_symm (ha : a.IsKeyed) (h : a.same b = true) : b.same a = true := by
  have hab := (same_iff_isRearrangement ha).mp h
  exact (same_iff_isRearrangement (hab.isKeyed ha)).mpr hab.symm

theorem same_trans (hab : a.same b = true) (hbc : b.same c = true) : a.same c = true := by
  obtain ⟨hkinds, hnames, hrelated⟩ := same_iff.mp hab
  obtain ⟨hkinds', hnames', hrelated'⟩ := same_iff.mp hbc
  exact same_iff.mpr ⟨hkinds.trans hkinds', hnames.trans hnames', hrelated.trans hrelated'⟩

theorem same_of_rearranged_left {a' : ResourceStatus} (ha : a.IsRearrangement a')
    (h : a.same b = true) : a'.same b = true := by
  obtain ⟨hkinds, hnames, hrelated⟩ := same_iff.mp h
  exact same_iff.mpr ⟨hkinds.perm_left ha.conditions, hnames.perm_left ha.versions,
    ha.related.symm.trans hrelated⟩

theorem same_rearranged_left {a' : ResourceStatus} (ha : a.IsRearrangement a') :
    a'.same b = a.same b :=
  Bool.eq_iff_iff.mpr ⟨same_of_rearranged_left ha.symm, same_of_rearranged_left ha⟩

theorem same_of_rearranged_right {b' : ResourceStatus} (hb : b.IsUnambiguous)
    (hperm : b.IsRearrangement b') (h : a.same b = true) : a.same b' = true := by
  obtain ⟨hkinds, hnames, hrelated⟩ := same_iff.mp h
  exact same_iff.mpr ⟨hkinds.perm_right hb.conditions hperm.conditions,
    hnames.perm_right hb.versions hperm.versions, hrelated.trans hperm.related⟩

theorem same_rearranged_right {b' : ResourceStatus} (hb : b.IsUnambiguous)
    (hperm : b.IsRearrangement b') : a.same b' = a.same b :=
  Bool.eq_iff_iff.mpr ⟨same_of_rearranged_right (hperm.isUnambiguous hb) hperm.symm,
    same_of_rearranged_right hb hperm⟩

/-- Statuses that hold the same in any order say the same just if they are not ambiguous. -/
theorem IsRearrangement.same_iff_isUnambiguous (h : a.IsRearrangement b) :
    a.same b = true ↔ a.IsUnambiguous := by
  rw [same_rearranged_left h.symm, same_self_iff]
  exact ⟨h.symm.isUnambiguous, h.isUnambiguous⟩

/-- If the order in the second status matters for no first one, the second one is unambiguous. -/
theorem isUnambiguous_of_same_rearranged
    (h : ∀ a b' : ResourceStatus, b.IsRearrangement b' → a.same b' = a.same b) :
    b.IsUnambiguous := by
  obtain ⟨cs, hcs⟩ := exists_sameByKey (·.kind) b.conditions
  obtain ⟨vs, hvs⟩ := exists_sameByKey (·.name) b.versions
  -- one of the lists is rearranged at a time, and the others stay as they are
  refine ⟨isUnambiguous_of_perm fun cs' ds hcs' hds => ?_,
    isUnambiguous_of_perm fun vs' ws hvs' hws => ?_⟩
  · have hsame := h ⟨cs', vs, b.relatedObjects⟩ { b with conditions := ds } ⟨hds, .refl _, .refl _⟩
    exact (same_iff.mp (hsame.trans (same_iff.mpr ⟨hcs', hvs, .refl _⟩))).1
  · have hsame := h ⟨cs, vs', b.relatedObjects⟩ { b with versions := ws } ⟨.refl _, hws, .refl _⟩
    exact (same_iff.mp (hsame.trans (same_iff.mpr ⟨hcs, hvs', .refl _⟩))).2.1

/-- **The laws of structural equality.** A status in which no kind and no name occurs twice says the
same as another one exactly if they hold the same in any order; so on such statuses the comparison
is an equivalence, and the order in the lists never matters.

Of any statuses, the comparison is transitive, and the order in the first one does not matter. A
status says the same as itself exactly if its conditions of one kind are equal, and its versions of
one name; and exactly then the order in it does not matter when it comes second. -/
theorem equality_laws (a b c : ResourceStatus) :
    (a.IsKeyed → a.IsUnambiguous ∧ (a.same b = true ↔ a.IsRearrangement b) ∧
      (a.same b = true → b.same a = true)) ∧
    (a.same a = true ↔ a.IsUnambiguous) ∧
    (a.same b = true → b.same c = true → a.same c = true) ∧
    (∀ a', a.IsRearrangement a' → a'.same b = a.same b) ∧
    (b.IsUnambiguous ↔
      ∀ a b' : ResourceStatus, b.IsRearrangement b' → a.same b' = a.same b) :=
  ⟨fun ha => ⟨ha.isUnambiguous, same_iff_isRearrangement ha, same_symm ha⟩, same_self_iff,
    same_trans, fun _ => same_rearranged_left,
    fun hb _ _ => same_rearranged_right hb, isUnambiguous_of_same_rearranged⟩

/-- A status whose conditions, versions and references come in three orders. -/
theorem equality_laws_threeOrders :
    let degraded : Condition := { kind := .degraded, status := .false }
    let available : Condition := { kind := .available, status := .true, lastTransition := ⟨5⟩ }
    let operator : OperandVersion := ⟨"operator", "4.1.0"⟩
    let sdn : OperandVersion := ⟨"sdn", "4.1.0"⟩
    let namespaces : ObjectReference := ⟨"", "namespaces", "", "sdn"⟩
    let a : ResourceStatus := ⟨[degraded, available], [operator, sdn], [namespaces, namespaces]⟩
    let b : ResourceStatus := ⟨[available, degraded], [operator, sdn], [namespaces, namespaces]⟩
    let c : ResourceStatus := ⟨[available, degraded], [sdn, operator], [namespaces, namespaces]⟩
    a.IsKeyed ∧ b.IsKeyed ∧ a.IsRearrangement b ∧ a.same b = true ∧ b.same c = true ∧
      a.same a = true ∧ b.same a = true ∧ a.same c = true ∧ a.same c = a.same b := by
  intro degraded available operator sdn namespaces a b c
  have hkeyed : a.IsKeyed ∧ b.IsKeyed := by decide
  have hconditions : [degraded, available].Perm [available, degraded] := .swap ..
  have hversions : [operator, sdn].Perm [sdn, operator] := .swap ..
  have hab : a.IsRearrangement b := ⟨hconditions, .refl _, .refl _⟩
  have hbc : b.IsRearrangement c := ⟨.refl _, hversions, .refl _⟩
  obtain ⟨hlaws, hself, htrans, -, -⟩ := equality_laws a b c
  obtain ⟨hunambiguous, hiff, hsymm⟩ := hlaws hkeyed.1
  obtain ⟨hlaws', -, -, -, -⟩ := equality_laws b c a
  have hsame : a.same b = true := hiff.mpr hab
  have hsame' : b.same c = true := (hlaws' hkeyed.2).2.1.mpr hbc
  have hright := (equality_laws a b c).2.2.2.2.mp (hlaws' hkeyed.2).1 a c hbc
  exact ⟨hkeyed.1, hkeyed.2, hab, hsame, hsame', hself.mpr hunambiguous, hsymm hsame,
    htrans hsame hsame', hright⟩

/-- Two conditions of one kind. -/
def degradedTwice (x y : ConditionStatus) : ResourceStatus where
  conditions := [{ kind := .degraded, status := x }, { kind := .degraded, status := y }]

/-- Statuses that are read from documents, in which two conditions are of one kind: one does not say
the same as itself; another one says the same as it, but not the other way round, and says it no
more when the order in it is changed. -/
theorem not_equivalence_degradedTwice :
    let a := degradedTwice .true .false
    let a' := degradedTwice .false .true
    let b := degradedTwice .true .true
    ClusterOperator.decode (ClusterOperator.encode ⟨"network", a⟩) = .ok ⟨"network", a⟩ ∧
      ClusterOperator.decode (ClusterOperator.encode ⟨"network", a'⟩) = .ok ⟨"network", a'⟩ ∧
      ClusterOperator.decode (ClusterOperator.encode ⟨"network", b⟩) = .ok ⟨"network", b⟩ ∧
      a.same a = false ∧ b.same a = true ∧ a.same b = false ∧
      a.IsRearrangement a' ∧ b.same a' = false := by
  have hread (x y : ConditionStatus) :
      ClusterOperator.decode (ClusterOperator.encode ⟨"network", degradedTwice x y⟩) =
        .ok ⟨"network", degradedTwice x y⟩ := by
    have hunset : Instant.truncate .unset = .unset := by decide
    rw [ClusterOperator.decode_encode, mapTimes]
    simp only [degradedTwice, List.map_cons, List.map_nil, hunset]
  have hrearranged :
      (degradedTwice .true .false).IsRearrangement (degradedTwice .false .true) :=
    ⟨.swap .., .refl _, .refl _⟩
  exact ⟨hread .true .false, hread .false .true, hread .true .true, by decide +kernel,
    by decide +kernel, by decide +kernel, hrearranged, by decide +kernel⟩

/-! ### What a status holds -/

/-- **The comparison tells whether two statuses hold the same**, if no kind of condition and no name
of a version occurs twice in either: the conditions are the same up to order, with their times, and
so are the versions and the references. That is to say that the same is found for each kind and for
each name, and that each reference occurs equally often. -/
theorem same_iff_perm (ha : a.IsKeyed) (hb : b.IsKeyed) :
    (a.same b = true ↔ a.conditions.Perm b.conditions ∧ a.versions.Perm b.versions ∧
      a.relatedObjects.Perm b.relatedObjects) ∧
    (a.same b = true ↔ (∀ k, findCondition k a.conditions = findCondition k b.conditions) ∧
      (∀ name, findVersion name a.versions = findVersion name b.versions) ∧
      ∀ r, a.relatedObjects.count r = b.relatedObjects.count r) := by
  constructor
  · rw [same_iff, sameByKey_iff_perm ha.kinds, sameByKey_iff_perm ha.names]
  · rw [same, Bool.and_eq_true, Bool.and_eq_true, sameConditions_eq_true_iff ha.kinds hb.kinds,
      sameVersions_eq_true_iff ha.names hb.names, sameReferences_iff_perm, List.perm_iff_count,
      and_assoc]

/-- A status with one condition and the given references. -/
def withReferences (rs : List ObjectReference) : ResourceStatus where
  conditions := [{ kind := .degraded, status := .false }]
  relatedObjects := rs

theorem same_iff_perm_repeatedReference :
    let pods : ObjectReference := ⟨"", "pods", "", "network"⟩
    let namespaces : ObjectReference := ⟨"", "namespaces", "", "sdn"⟩
    let a := withReferences [pods, pods, namespaces]
    let b := withReferences [namespaces, pods, pods]
    let c := withReferences [namespaces, namespaces, pods]
    a.IsKeyed ∧ b.IsKeyed ∧ c.IsKeyed ∧ a.same b = true ∧ a.same c = false := by
  intro pods namespaces a b c
  have hkeyed : a.IsKeyed ∧ b.IsKeyed ∧ c.IsKeyed := by decide
  obtain ⟨ha, hb, hc⟩ := hkeyed
  have hrelated : [pods, pods, namespaces].Perm [namespaces, pods, pods] := by decide
  refine ⟨ha, hb, hc, (same_iff_perm ha hb).1.mpr ⟨.refl _, .refl _, hrelated⟩, ?_⟩
  refine Bool.eq_false_iff.mpr fun h => ?_
  exact absurd (((same_iff_perm ha hc).2.mp h).2.2 pods) (by decide)

end ResourceStatus

end OperatorHealth
