import OperatorHealth.Proofs.Publication.Unchanged
import OperatorHealth.Proofs.SharedPublisher.Repetition

/-!
# Cycles that are skipped

A skipped cycle drops nothing. It has found the resource, and the status that it has worked out is
the one that is there, up to the order of the references, although the comparison of the two looks
at the first condition of each kind and the first version of each name alone. This holds for any
resource, also for lists in which a kind or a name occurs more than once.

On the other hand, a cycle that finds nothing to change is not skipped if two conditions of one kind
differ in the resource: such a status does not even say the same as itself.

## Main results

* `publish_eq_skipped_iff`: cycles on any store.
* `Publisher.skipped_iff`: cycles of a publisher over a store in memory.
-/

namespace OperatorHealth

/-- A cycle is skipped just if it finds a resource that says what it works out. -/
theorem publish_eq_skipped_iff {σ : Type} [ResourceStore σ] {name release : String}
    {related : List ObjectReference} {now : Instant} {report : StatusReport} {s : σ} :
    (publish name release related now report s).1 = .skipped ↔
      ∃ r, (ResourceStore.get name s).1 = .ok r ∧
        (report.applyTo release related now r.status).same r.status = true := by
  constructor
  · intro h
    obtain ⟨r, t, hget, hskipped⟩ := publish_of_skipped h
    refine ⟨r, by rw [hget], ?_⟩
    by_contra hsame
    rw [publish_of_found hget (by simpa using hsame)] at h
    exact Outcome.ofWrite_ne_skipped _ h
  · rintro ⟨r, hget, hsame⟩
    rw [publish_of_same (Prod.ext hget rfl) hsame]

/-- **A skip drops no change.** A cycle over a store in memory, whose calls fail in any pattern and
which may hold any resource, is counted as skipped just if it has found the resource, and the
conditions that it has worked out are those that are there, one by one and with their times, the
versions are those that are there, and so are the references, up to their order; and no two
conditions of one kind differ. -/
theorem Publisher.skipped_iff (p : Publisher (ScriptedStore MemoryStore)) (now : Instant)
    (r : StatusReport) :
    (p.cycle now r).IsCounted .skipped ↔
      ∃ old, (ResourceStore.get p.name p.store).1 = .ok old ∧
        p.store.inner.find? p.name = some old ∧
        (r.applyTo p.release p.related now old.status).conditions = old.status.conditions ∧
        (r.applyTo p.release p.related now old.status).versions = old.status.versions ∧
        (r.applyTo p.release p.related now old.status).relatedObjects.Perm
          old.status.relatedObjects ∧
        IsUnambiguous (·.kind) old.status.conditions := by
  rw [(p.isCounted_cycle now r).iff_eq, publish_eq_skipped_iff]
  simp only [StatusReport.same_applyTo_iff]
  constructor
  · rintro ⟨old, hget, hsame⟩
    rcases ScriptedStore.get_cases p.name p.store with
      ⟨old', t, hold, hget', -⟩ | ⟨fault, t, hget', -⟩ <;> rw [hget'] at hget <;> cases hget
    exact ⟨old, by rw [hget'], hold, hsame⟩
  · rintro ⟨old, hget, -, hsame⟩
    exact ⟨old, hget, hsame⟩

/-- A store whose resource has two conditions of one kind, the second one with the given status. -/
def twiceStated (behind : ConditionStatus) : MemoryStore where
  objects := [{
    name := "network"
    status.conditions := [{ kind := .upgradeable, status := .true },
      { kind := .degraded, status := .false }, { kind := .degraded, status := behind }]
    status.versions := [⟨"operator", "4.1.0"⟩] }]

/-- A report that the operator is not degraded finds nothing to change. Yet its cycle is not skipped
if a second condition, which no one looks at, says otherwise. -/
theorem Publisher.skipped_iff_twiceStated :
    let report : StatusReport := ⟨[{ kind := .degraded, status := .false }], true⟩
    ((freshPublisher (twiceStated .false)).cycle (.ofSeconds 1) report).IsCounted .skipped ∧
    ¬ ((freshPublisher (twiceStated .true)).cycle (.ofSeconds 1) report).IsCounted .skipped := by
  intro report
  constructor
  · refine (skipped_iff _ _ _).mpr ⟨_, rfl, rfl, ?_⟩
    exact ⟨by decide +kernel, by decide +kernel, by decide +kernel, by decide +kernel⟩
  · intro h
    obtain ⟨old, -, hold, -, -, -, hunambiguous⟩ := (skipped_iff _ _ _).mp h
    obtain rfl := Option.some.inj hold
    exact absurd hunambiguous (by decide +kernel)

end OperatorHealth
