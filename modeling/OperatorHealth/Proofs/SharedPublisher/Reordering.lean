import OperatorHealth.Proofs.Publication.Reordering
import OperatorHealth.Proofs.SharedPublisher.Repetition

/-!
# Cycles for reports in another order

Two reports say the same, one thing of each kind at most, but in another order. A cycle for the one
is counted like a cycle for the other, over any store and whichever of its calls fail, and leaves
the same resources, up to the order of what they hold.

If no kind of condition occurs twice in the resource, what the two cycles leave also compares equal,
unless a cycle fails and leaves a resource in which two versions of one name differ: such a resource
compares unequal even to itself.

## Main definitions

* `Cycle.EndsAlike`: two cycles that end in the same way and leave the same, in any order.
* `Cycle.LeavesEqual`: what they leave, by the comparison of statuses.

## Main results

* `Publisher.order_irrelevant`: cycles of a publisher over a store in memory and in a directory.
-/

namespace OperatorHealth

open ScriptedStore (lookBehind)

section Store

variable {σ : Type} (look : String → σ → Option ClusterOperator)

/-- Two cycles are counted as the same outcome, and leave the same resources, each in any order. -/
structure Cycle.EndsAlike (c c' : Cycle σ) : Prop where
  outcome (o : Outcome) : c.IsCounted o ↔ c'.IsCounted o
  stored (n : String) :
    Option.Rel ClusterOperator.IsRearrangement (look n c.after.2) (look n c'.after.2)

/-- What two cycles leave under a name compares equal just if its versions are not ambiguous, which
they are not unless the cycles fail. -/
structure Cycle.LeavesEqual (name : String) (c c' : Cycle σ) : Prop where
  same_iff (a b : ClusterOperator) : look name c.after.2 = some a → look name c'.after.2 = some b →
    (a.status.same b.status = true ↔ IsUnambiguous (·.name) a.status.versions)
  same_of_not_failed (a b : ClusterOperator) : ¬ c.IsCounted .failed →
    look name c.after.2 = some a → look name c'.after.2 = some b → a.status.same b.status = true

variable {look} [ResourceStore σ] {f : Instant → Instant} {r r' : StatusReport}

theorem StatusReport.IsReordering.endsAlike_cycle (h : r.IsReordering r')
    (hstore : DisregardsOrder σ look) (p : Publisher σ) (now : Instant) :
    (p.cycle now r).EndsAlike look (p.cycle now r') := by
  have halike := h.publish_alike hstore p.name p.release p.related now p.store
  constructor
  · intro o
    rw [(p.isCounted_cycle now r).iff_eq, (p.isCounted_cycle now r').iff_eq, halike.end_eq]
  · intro n
    rw [p.store_cycle, p.store_cycle]
    exact halike.look n

theorem StatusReport.IsReordering.leavesEqual_cycle (h : r.IsReordering r')
    (horder : DisregardsOrder σ look) (hstore : ShowsContents σ look f) (p : Publisher σ)
    (now : Instant) (hold : ∀ old, look p.name p.store = some old →
      old.name = p.name ∧ (old.status.conditions.map (·.kind)).Nodup) :
    (p.cycle now r).LeavesEqual look p.name (p.cycle now r') := by
  have hleft {a : ClusterOperator} (ha : look p.name (p.cycle now r).after.2 = some a) :
      (a.status.conditions.map (·.kind)).Nodup ∧
        (¬ (p.cycle now r).IsCounted .failed → a.status.IsKeyed) := by
    rw [(p.isCounted_cycle now r).iff_eq]
    rw [p.store_cycle] at ha
    exact isKeyed_publish hstore hold ha
  have hsame {a b : ClusterOperator} (ha : look p.name (p.cycle now r).after.2 = some a)
      (hb : look p.name (p.cycle now r').after.2 = some b) :
      a.status.same b.status = true ↔ a.status.IsUnambiguous := by
    have hrel := (h.endsAlike_cycle horder p now).stored p.name
    rw [ha, hb] at hrel
    cases hrel with
    | some hab => exact hab.status.same_iff_isUnambiguous
  constructor
  · intro a b ha hb
    rw [hsame ha hb]
    exact ⟨fun hunambiguous => hunambiguous.versions,
      fun hversions => ⟨isUnambiguous_of_nodup (hleft ha).1, hversions⟩⟩
  · intro a b hfailed ha hb
    exact (hsame ha hb).mpr ((hleft ha).2 hfailed).isUnambiguous

end Store

/-- **The order of the conditions in a report is irrelevant.** Two reports say the same in any
order, and one thing of each kind at most. A cycle for the one and a cycle for the other, over a
store in memory or in a directory whose calls fail in any pattern and which may hold anything, in
any lawful format, are counted as the same outcome, and leave the same resources, up to the order of
what they hold.

The cycles find no resource, or one in which no kind of condition occurs twice and which, in a
directory, is recorded under its own name. Then what they leave there compares equal just if no two
versions of one name differ in it, and in any case if they do not fail. -/
theorem Publisher.order_irrelevant {r r' : StatusReport} (h : r.IsReordering r') (now : Instant) :
    (∀ p : Publisher (ScriptedStore MemoryStore),
      (p.cycle now r).EndsAlike (lookBehind MemoryStore.look) (p.cycle now r') ∧
      ((∀ old, p.store.inner.find? p.name = some old →
          (old.status.conditions.map (·.kind)).Nodup) →
        (p.cycle now r).LeavesEqual (lookBehind MemoryStore.look) p.name (p.cycle now r'))) ∧
    (∀ [DocumentFormat] [LawfulDocumentFormat], ∀ p : Publisher (ScriptedStore FileStore),
      (p.cycle now r).EndsAlike (lookBehind FileStore.look) (p.cycle now r') ∧
      ((∀ old, p.store.inner.get p.name = .ok old →
          old.name = p.name ∧ (old.status.conditions.map (·.kind)).Nodup) →
        (p.cycle now r).LeavesEqual (lookBehind FileStore.look) p.name (p.cycle now r'))) := by
  constructor
  · intro p
    have horder := MemoryStore.disregardsOrder.scripted
    refine ⟨h.endsAlike_cycle horder p now, fun hnodup => ?_⟩
    exact h.leavesEqual_cycle horder MemoryStore.showsContents.scripted p now
      fun old hold => ⟨MemoryStore.name_of_find? hold, hnodup old hold⟩
  · intro _ _ p
    have horder := FileStore.disregardsOrder.scripted
    refine ⟨h.endsAlike_cycle horder p now, fun hold => ?_⟩
    refine h.leavesEqual_cycle horder FileStore.showsContents.scripted p now fun old hfound => ?_
    rw [lookBehind, FileStore.look_eq_some_iff] at hfound
    exact hold old hfound

/-- A report on two kinds. -/
def wellAndMoving : StatusReport where
  conditions := [{ kind := .degraded, status := .false }, { kind := .progressing, status := .true }]
  reachedRelease := false

/-- The same report the other way round. -/
def movingAndWell : StatusReport where
  conditions := [{ kind := .progressing, status := .true }, { kind := .degraded, status := .false }]
  reachedRelease := false

open scoped Json in
/-- Where there is nothing yet, the conditions join in the order of the report. What is stored is
not the same, and compares equal. -/
theorem Publisher.order_irrelevant_wellAndMoving :
    wellAndMoving.IsReordering movingAndWell ∧
    (∃ a b,
      ((freshPublisher ({} : MemoryStore)).cycle (.ofSeconds 1)
        wellAndMoving).after.2.inner.find? "network" = some a ∧
      ((freshPublisher ({} : MemoryStore)).cycle (.ofSeconds 1)
        movingAndWell).after.2.inner.find? "network" = some b ∧
      a.status.conditions ≠ b.status.conditions ∧ a.status.same b.status = true) ∧
    ((freshPublisher bareDirectory).cycle (.ofSeconds 1) movingAndWell).IsCounted .published := by
  have h : wellAndMoving.IsReordering movingAndWell := ⟨by decide, by decide, rfl⟩
  obtain ⟨hmemory, hdirectory⟩ := order_irrelevant h (.ofSeconds 1)
  refine ⟨h, ?_, ((hdirectory (freshPublisher bareDirectory)).1.outcome .published).mp
    (by decide +kernel)⟩
  obtain ⟨a, ha⟩ : ∃ a, ((freshPublisher ({} : MemoryStore)).cycle (.ofSeconds 1)
      wellAndMoving).after.2.inner.find? "network" = some a :=
    Option.isSome_iff_exists.mp (by decide +kernel)
  obtain ⟨b, hb⟩ : ∃ b, ((freshPublisher ({} : MemoryStore)).cycle (.ofSeconds 1)
      movingAndWell).after.2.inner.find? "network" = some b :=
    Option.isSome_iff_exists.mp (by decide +kernel)
  have hdiffer : (((freshPublisher ({} : MemoryStore)).cycle (.ofSeconds 1)
        wellAndMoving).after.2.inner.find? "network").map (·.status.conditions) ≠
      (((freshPublisher ({} : MemoryStore)).cycle (.ofSeconds 1)
        movingAndWell).after.2.inner.find? "network").map (·.status.conditions) := by
    decide +kernel
  rw [ha, hb] at hdiffer
  have hequal := (hmemory (freshPublisher ({} : MemoryStore))).2 nofun
  exact ⟨a, b, ha, hb, fun heq => hdiffer (congrArg some heq),
    hequal.same_of_not_failed a b (by decide +kernel) ha hb⟩

/-- A resource with two versions of one name. -/
def twoVersions : ClusterOperator where
  name := "network"
  status.conditions := [{ kind := .degraded, status := .false }]
  status.versions := [⟨"operator", "4.0.0"⟩, ⟨"operator", "4.1.0"⟩]

/-- A publisher of that resource, whose next update is refused. -/
def refusedUpdate : Publisher (ScriptedStore MemoryStore) :=
  freshPublisher { objects := [twoVersions], updateFailure := some "disk full" }

/-- A cycle that fails leaves such a resource as it is, whatever the order in the report, and the
resource compares unequal to itself. -/
theorem Publisher.not_same_refusedUpdate :
    wellAndMoving.IsReordering movingAndWell ∧
    refusedUpdate.store.inner.find? refusedUpdate.name = some twoVersions ∧
    (twoVersions.status.conditions.map (·.kind)).Nodup ∧
    (refusedUpdate.cycle (.ofSeconds 1) wellAndMoving).IsCounted .failed ∧
    (refusedUpdate.cycle (.ofSeconds 1) movingAndWell).IsCounted .failed ∧
    (refusedUpdate.cycle (.ofSeconds 1) wellAndMoving).after.2.inner.find? "network" =
      some twoVersions ∧
    (refusedUpdate.cycle (.ofSeconds 1) movingAndWell).after.2.inner.find? "network" =
      some twoVersions ∧
    twoVersions.status.same twoVersions.status = false := by
  exact ⟨⟨by decide, by decide, rfl⟩, rfl, by decide, by decide +kernel, by decide +kernel,
    by decide +kernel, by decide +kernel, by decide +kernel⟩

end OperatorHealth
