import OperatorHealth.Proofs.Publication.Course
import OperatorHealth.Proofs.Publication.Unchanged
import OperatorHealth.Proofs.Store.Observation

/-!
# Reports in another order

New kinds join a list of conditions in the order in which a report names them, so cycles for two
reports that say the same in another order work out different lists. If the reports say one thing of
each kind at most, those lists are the same up to order, whatever was there before: each kind is
found with the same, the guard on progress sees the same, and what stands behind the first condition
of a kind is what stood there before. So the cycles compare alike with what was there, write or
skip alike, and leave the same behind, up to order.

## Main definitions

* `StatusReport.IsReordering`: two reports that say the same in another order.

## Main results

* `StatusReport.IsReordering.applyTo`: the statuses that cycles work out.
* `StatusReport.IsReordering.publish_alike`: cycles on a store that disregards the order of what a
  resource holds.
* `isKeyed_publish`: no kind and no name occurs twice after a cycle that does not fail.
-/

namespace OperatorHealth

variable {cs ds es : List Condition} {now : Instant}

/-! ### Lists in another order -/

/-- Where no kind occurs twice, there is the same of each kind in any order. -/
theorem filter_kind_eq_of_perm (h : cs.Perm ds) (hnodup : (cs.map (·.kind)).Nodup)
    (k : ConditionKind) : cs.filter (·.kind = k) = ds.filter (·.kind = k) := by
  have hfilter : (cs.filter (·.kind = k)).Perm (ds.filter (·.kind = k)) := h.filter _
  cases hcs : cs.filter (·.kind = k) with
  | nil =>
    rw [hcs] at hfilter
    exact hfilter.nil_eq
  | cons c rest =>
    have hmem : c ∈ cs.filter (·.kind = k) := hcs ▸ List.mem_cons_self ..
    obtain ⟨hc, rfl⟩ : c ∈ cs ∧ c.kind = k := by simpa using hmem
    rw [filter_kind_eq_singleton hnodup hc] at hfilter hcs
    rw [← hcs, hfilter.singleton_eq]

/-- What grows out of one list is the same up to order if the same is found in it for each kind. -/
theorem KeepsBehind.perm (h : KeepsBehind cs ds) (h' : KeepsBehind cs es)
    (hfound : ∀ k, findCondition k ds = findCondition k es) : ds.Perm es := by
  refine perm_of_filter_kind_eq fun k => ?_
  have hhead : (ds.filter (·.kind = k)).head? = (es.filter (·.kind = k)).head? := by
    rw [List.head?_filter, List.head?_filter]
    exact hfound k
  have htail : (ds.filter (·.kind = k)).tail = (es.filter (·.kind = k)).tail :=
    (h.behind k).trans (h'.behind k).symm
  cases hds : ds.filter (·.kind = k) <;> cases hes : es.filter (·.kind = k) <;> simp_all

/-! ### What is found for a kind -/

section Found

variable (h : ∀ k, findCondition k cs = findCondition k ds)
include h

theorem findCondition_mergeCondition_congr (now : Instant) (c : Condition) (k : ConditionKind) :
    findCondition k (mergeCondition now c cs) = findCondition k (mergeCondition now c ds) := by
  by_cases hk : c.kind = k
  · subst hk
    rw [findCondition_mergeCondition_self, findCondition_mergeCondition_self, h]
  · rw [findCondition_mergeCondition_of_ne now cs hk, findCondition_mergeCondition_of_ne now ds hk,
      h]

theorem findCondition_guardProgress_congr (now : Instant) (k : ConditionKind) :
    findCondition k (guardProgress now cs) = findCondition k (guardProgress now ds) := by
  have hlacks : lacksAvailability cs = lacksAvailability ds := by simp only [lacksAvailability, h]
  unfold guardProgress
  rw [hlacks]
  split
  · exact findCondition_mergeCondition_congr h now startingUp k
  · exact h k

end Found

/-! ### Reports -/

/-- Two reports say the same in any order, and one thing of each kind at most. -/
structure StatusReport.IsReordering (r r' : StatusReport) : Prop where
  conditions : r.conditions.Perm r'.conditions
  nodup_kinds : (r.conditions.map (·.kind)).Nodup
  reached_eq : r.reachedRelease = r'.reachedRelease

variable {r r' : StatusReport}

namespace StatusReport.IsReordering

theorem findCondition_conditionsAfter (h : r.IsReordering r') (now : Instant)
    (cs : List Condition) (k : ConditionKind) :
    findCondition k (r.conditionsAfter now cs) = findCondition k (r'.conditionsAfter now cs) := by
  refine findCondition_mergeCondition_congr
    (findCondition_guardProgress_congr (fun k => ?_) now) now upgradeAllowed k
  rw [findCondition_mergeConditions, findCondition_mergeConditions,
    filter_kind_eq_of_perm h.conditions h.nodup_kinds]

theorem conditionsAfter_perm (h : r.IsReordering r') (now : Instant) (cs : List Condition) :
    (r.conditionsAfter now cs).Perm (r'.conditionsAfter now cs) :=
  (r.keepsBehind_conditionsAfter now cs).perm (r'.keepsBehind_conditionsAfter now cs)
    (h.findCondition_conditionsAfter now cs)

/-- **Cycles for reports in another order** work out the same up to order. -/
theorem applyTo (h : r.IsReordering r') (release : String) (related : List ObjectReference)
    (now : Instant) (old : ResourceStatus) :
    (r.applyTo release related now old).IsRearrangement
      (r'.applyTo release related now old) where
  conditions := h.conditionsAfter_perm now old.conditions
  versions := by rw [StatusReport.applyTo, StatusReport.applyTo, h.reached_eq]
  related := .refl _

end StatusReport.IsReordering

/-! ### Cycles -/

section Publish

variable {σ : Type} {look : String → σ → Option ClusterOperator} {f : Instant → Instant}
  {name release : String} {related : List ObjectReference} {s : σ}

theorem EndsAlike.ofWrite {x y : Except StoreFault Unit × σ} (h : EndsAlike look x y) :
    EndsAlike look (Outcome.ofWrite x) (Outcome.ofWrite y) := by
  obtain ⟨answer, s⟩ := x
  obtain ⟨answer', t⟩ := y
  obtain rfl : answer = answer' := h.end_eq
  cases answer <;> exact ⟨rfl, h.look⟩

variable [ResourceStore σ]

/-- **Cycles for reports in another order** on a store that disregards the order of what a resource
holds end in the same way, and leave the same behind, up to that order. -/
theorem StatusReport.IsReordering.publish_alike (h : r.IsReordering r')
    (hstore : DisregardsOrder σ look) (name release : String) (related : List ObjectReference)
    (now : Instant) (s : σ) :
    EndsAlike look (publish name release related now r s)
      (publish name release related now r' s) := by
  rcases hget : ResourceStore.get name s with ⟨fault | old, t⟩
  · by_cases hfault : ∃ n, fault = .store (.notFound n)
    · obtain ⟨n, rfl⟩ := hfault
      rw [publish_of_notFound hget, publish_of_notFound hget]
      exact (hstore.create (.ofStatus name (h.applyTo release related now {})) t).ofWrite
    · have hother : ∀ n, fault ≠ .store (.notFound n) := fun n hn => hfault ⟨n, hn⟩
      rw [publish_of_fault hget hother, publish_of_fault hget hother]
      exact .refl _
  · have hnew := h.applyTo release related now old.status
    have hcompare : (r.applyTo release related now old.status).same old.status =
        (r'.applyTo release related now old.status).same old.status :=
      (ResourceStatus.same_rearranged_left hnew).symm
    cases hsame : (r.applyTo release related now old.status).same old.status with
    | true =>
      rw [publish_of_same hget hsame, publish_of_same hget (hcompare ▸ hsame)]
      exact .refl _
    | false =>
      rw [publish_of_found hget hsame, publish_of_found hget (hcompare ▸ hsame)]
      exact (hstore.replaceStatus (.ofStatus old.name hnew) t).ofWrite

/-! ### What occurs once -/

theorem nodup_names_publishedVersions (release : String) (reached : Bool) :
    ((publishedVersions release reached).map (·.name)).Nodup := by
  unfold publishedVersions
  split <;> simp

/-- A cycle works out a status in which no kind and no name occurs twice from one in which no kind
does. -/
theorem StatusReport.isKeyed_mapTimes_applyTo {old : ResourceStatus} (report : StatusReport)
    (release : String) (related : List ObjectReference) (now : Instant) (f : Instant → Instant)
    (hold : (old.conditions.map (·.kind)).Nodup) :
    ((report.applyTo release related now old).mapTimes f).IsKeyed where
  kinds := by
    rw [ResourceStatus.map_kind_mapTimes]
    exact nodup_kinds_conditionsAfter hold
  names := nodup_names_publishedVersions release report.reachedRelease

omit [ResourceStore σ] in
/-- What a write leaves, if it leaves what was there or nothing when it fails. -/
theorem PutsOrKeeps.isKeyed_ofWrite {new a : ClusterOperator} {x : Except StoreFault Unit × σ}
    (h : PutsOrKeeps look new s x) (hnew : new.status.IsKeyed)
    (hold : ∀ old, look new.name s = some old → (old.status.conditions.map (·.kind)).Nodup)
    (ha : look new.name (Outcome.ofWrite x).2 = some a) :
    (a.status.conditions.map (·.kind)).Nodup ∧
      ((Outcome.ofWrite x).1 ≠ .failed → a.status.IsKeyed) := by
  obtain ⟨fault | ok, t⟩ := x
  · rcases h.keeps fault rfl with hkept | hnone
    · exact ⟨hold a (hkept.symm.trans ha), fun hfailed => absurd rfl hfailed⟩
    · cases hnone.symm.trans ha
  · obtain rfl : a = new := Option.some.inj (ha.symm.trans (h.puts rfl))
    exact ⟨hnew.kinds, fun _ => hnew⟩

/-- What a cycle leaves under its name, if it has found nothing there or a resource that records
that name and in which no kind occurs twice: no kind occurs twice, and unless it fails, no name of a
version does. -/
theorem isKeyed_publish (hstore : ShowsContents σ look f)
    (hold : ∀ old, look name s = some old →
      old.name = name ∧ (old.status.conditions.map (·.kind)).Nodup)
    {report : StatusReport} {a : ClusterOperator}
    (ha : look name (publish name release related now report s).2 = some a) :
    (a.status.conditions.map (·.kind)).Nodup ∧
      ((publish name release related now report s).1 ≠ .failed → a.status.IsKeyed) := by
  rcases hget : ResourceStore.get name s with ⟨fault | old, t⟩
  all_goals
    have hkept : ∀ old, look name t = some old →
        old.name = name ∧ (old.status.conditions.map (·.kind)).Nodup :=
      fun old h => hold old ((hstore.get_keeps hget name).symm.trans h)
  · by_cases hfault : ∃ n, fault = .store (.notFound n)
    · obtain ⟨n, rfl⟩ := hfault
      rw [publish_of_notFound hget] at ha ⊢
      have hempty : (({} : ResourceStatus).conditions.map (·.kind)).Nodup := List.nodup_nil
      exact (hstore.create _ t).isKeyed_ofWrite
        (report.isKeyed_mapTimes_applyTo release related now f hempty)
        (fun old h => (hkept old h).2) ha
    · rw [publish_of_fault hget fun n hn => hfault ⟨n, hn⟩] at ha ⊢
      exact ⟨(hkept a ha).2, fun hfailed => absurd rfl hfailed⟩
  · obtain ⟨rfl, hnodup⟩ := hold old (hstore.get_ok hget)
    cases hsame : (report.applyTo release related now old.status).same old.status with
    | true =>
      rw [publish_of_same hget hsame] at ha ⊢
      rw [hstore.get_keeps hget, hstore.get_ok hget] at ha
      obtain rfl : old = a := Option.some.inj ha
      refine ⟨hnodup, fun _ => ⟨hnodup, ?_⟩⟩
      rw [← (StatusReport.same_applyTo_iff.mp hsame).2.1]
      exact nodup_names_publishedVersions release report.reachedRelease
    | false =>
      rw [publish_of_found hget hsame] at ha ⊢
      have hwrite := hstore.replaceStatus (s := t)
        (r := { old with status := report.applyTo release related now old.status })
        fun x hx => (hkept x hx).1
      exact hwrite.isKeyed_ofWrite (report.isKeyed_mapTimes_applyTo release related now f hnodup)
        (fun x hx => (hkept x hx).2) ha

end Publish

end OperatorHealth
