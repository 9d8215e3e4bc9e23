import OperatorHealth.Proofs.Json.RoundTrip
import OperatorHealth.Proofs.Publication.Repetition
import OperatorHealth.Proofs.SharedPublisher.Accounting
import OperatorHealth.Proofs.Store.File

/-!
# Publishing a report twice

A report whose cycle has not failed is published once more, with nothing else changed. The second
cycle is counted as skipped, and writes nothing, just if every last turn of a kind takes effect at
the time that the first cycle has left. That is so if no kind turns, or if the clock of a store in
memory shows the same second. A report that says of a kind first one thing and then another is
written again as soon as the clock shows another second, and so is one that does not allow upgrades.

## Main definitions

* `Publisher.withBooks`: the publisher after a cycle.
* `Publisher.cycleAgain`: the second cycle of a report.

## Main results

* `ScriptedStore.skipped_publish_again_iff`: a second cycle on a store that recalls what was
  written.
* `Publisher.skipped_again_iff`: a second cycle on stores in memory and in a directory.
-/

namespace OperatorHealth

section Store

variable {σ : Type} [ResourceStore σ] {name release : String} {related : List ObjectReference}
  {report : StatusReport} {f : Instant → Instant} {now₁ now₂ : Instant}

/-! ### The first cycle -/

/-- A status that is kept because it says what a cycle works out is one that was worked out. -/
theorem StatusReport.isReadBack_of_same {old : ResourceStatus} (htimes : old.mapTimes f = old)
    (hsame : (report.applyTo release related now₁ old).same old = true) :
    report.IsReadBack f now₁ old old := by
  intro k
  have hconditions : report.conditionsAfter now₁ old.conditions = old.conditions :=
    (same_applyTo_iff.mp hsame).1
  rw [hconditions]
  conv_lhs => rw [← htimes, ResourceStatus.findCondition_mapTimes]
  rfl

namespace ScriptedStore

variable {s : ScriptedStore σ}

/-! ### The second cycle -/

/-- **A second cycle for the same report**, right after one that has not failed, is skipped just if
the report keeps its times. The first cycle has found no resource, or one under its own name in
which no kind of condition occurs twice and whose times the store gives back as they are. -/
theorem skipped_publish_again_iff (hstore : RecallingStore σ name f) (hscript : s.script = [])
    (hold : ∀ r m, ResourceStore.get name s.inner = (.ok r, m) →
      r.name = name ∧ (r.status.conditions.map (·.kind)).Nodup ∧ r.status.mapTimes f = r.status)
    (houtcome : (publish name release related now₁ report s).1 ≠ .failed) :
    (publish name release related now₂ report
        (publish name release related now₁ report s).2).1 = .skipped ↔
      report.KeepsTimes f now₁ now₂ := by
  obtain ⟨hscript', st, hread, hst⟩ :=
    exists_read_publish hstore hscript (fun r m h => (hold r m h).1) houtcome
  have hnodup := nodup_readStatus fun r m h => (hold r m h).2.1
  -- either way the status says what the first cycle has worked out
  obtain ⟨hback, hkinds, hversions, hrelated⟩ :
      report.IsReadBack f now₁ (readStatus name s.inner) st ∧
      (st.conditions.map (·.kind)).Nodup ∧
      st.versions = publishedVersions release report.reachedRelease ∧
      sameReferences related st.relatedObjects = true := by
    rcases hst with rfl | ⟨rfl, hsame⟩
    · refine ⟨fun k => ResourceStatus.findCondition_mapTimes f k, ?_, rfl, beq_self_eq_true _⟩
      rw [ResourceStatus.map_kind_mapTimes]
      exact StatusReport.nodup_kinds_conditionsAfter hnodup
    · have htimes : (readStatus name s.inner).mapTimes f = readStatus name s.inner := by
        unfold readStatus
        split
        · next r m hget => exact (hold r m hget).2.2
        · rfl
      obtain ⟨-, hversions, hrelated, -⟩ := StatusReport.same_applyTo_iff.mp hsame
      exact ⟨StatusReport.isReadBack_of_same htimes hsame, hnodup, hversions.symm,
        sameReferences_iff_perm.mpr hrelated⟩
  rw [← hback.same_applyTo_again_iff hkinds hversions hrelated now₂]
  have hget := get_of_script_nil hscript' name
  rw [hread] at hget
  cases hsame : (report.applyTo release related now₂ st).same st with
  | true => simp [publish_of_same hget hsame]
  | false =>
    rw [publish_of_found hget hsame]
    simp [Outcome.ofWrite_ne_skipped]

end ScriptedStore

/-! ### Publishers -/

variable {p : Publisher (ScriptedStore σ)} {r : StatusReport}

/-- A publisher after a cycle, with nothing else changed. -/
def Publisher.withBooks (p : Publisher σ) (c : Cycle σ) : Publisher σ :=
  { p with tally := c.after.1, store := c.after.2 }

/-- The cycle of a report at `now₂`, right after another one for the same report at `now₁`. -/
def Publisher.cycleAgain (p : Publisher σ) (now₁ now₂ : Instant) (r : StatusReport) : Cycle σ :=
  (p.withBooks (p.cycle now₁ r)).cycle now₂ r

theorem Publisher.store_withBooks (p : Publisher σ) (now : Instant) (r : StatusReport) :
    (p.withBooks (p.cycle now r)).store =
      (publish p.name p.release p.related now r p.store).2 :=
  p.store_cycle now r

/-- Nothing disturbs the calls of the cycle of a report, it finds the resource called `name` in
order, if any, and does not fail. Times are given back as they are. -/
structure Cycle.GivesBack (name : String) (f : Instant → Instant)
    (c : Cycle (ScriptedStore σ)) : Prop where
  undisturbed : c.before.2.script = []
  in_order : ∀ r m, ResourceStore.get name c.before.2.inner = (.ok r, m) →
    r.name = name ∧ (r.status.conditions.map (·.kind)).Nodup ∧ r.status.mapTimes f = r.status
  not_failed : ¬ c.IsCounted .failed

/-- A skipped cycle on a store that nothing disturbs has asked for the resource, and no more. -/
theorem Publisher.calls_of_skipped (hstore : RecallingStore σ p.name f)
    (hscript : p.store.script = []) (hskipped : (p.cycle now₁ r).IsCounted .skipped) :
    (p.cycle now₁ r).calls = [⟨.get, p.name, none⟩] ∧
      (p.cycle now₁ r).after.2.inner = p.store.inner := by
  obtain ⟨old, t, hget, hpublish⟩ :=
    publish_of_skipped ((p.isCounted_cycle now₁ r).iff_eq.mp hskipped)
  have hafter : (p.cycle now₁ r).after = _ := p.after_cycle now₁ r
  rw [hpublish] at hafter
  rw [ScriptedStore.get_of_script_nil hscript] at hget
  obtain ⟨hanswer, rfl⟩ := Prod.mk.inj hget
  have hinner := hstore.get_keeps (Prod.ext hanswer rfl)
  refine ⟨?_, by rw [hafter]; exact hinner⟩
  rw [Cycle.calls, hafter, hanswer]
  exact List.drop_left

/-- **A report is published twice in a row.** The second cycle is skipped just if the report keeps
its times, and then it asks for the resource and leaves everything as it is. -/
theorem Cycle.GivesBack.cycleAgain (hstore : RecallingStore σ p.name f)
    (h : (p.cycle now₁ r).GivesBack p.name f) (now₂ : Instant) :
    ((p.cycleAgain now₁ now₂ r).IsCounted .skipped ↔ r.KeepsTimes f now₁ now₂) ∧
    ((p.cycleAgain now₁ now₂ r).IsCounted .skipped →
      (p.cycleAgain now₁ now₂ r).calls = [⟨.get, p.name, none⟩] ∧
      (p.cycleAgain now₁ now₂ r).after.2.inner = (p.cycle now₁ r).after.2.inner) := by
  have hfailed := h.not_failed
  rw [(p.isCounted_cycle now₁ r).iff_eq] at hfailed
  have hold : ∀ r m, ResourceStore.get p.name p.store.inner = (.ok r, m) →
      r.name = p.name ∧ (r.status.conditions.map (·.kind)).Nodup ∧
        r.status.mapTimes f = r.status := h.in_order
  have hscript : (p.withBooks (p.cycle now₁ r)).store.script = [] := by
    rw [Publisher.store_withBooks]
    exact (ScriptedStore.exists_read_publish hstore h.undisturbed
      (fun r m hr => (hold r m hr).1) hfailed).1
  refine ⟨?_, fun hskipped => Publisher.calls_of_skipped hstore hscript hskipped⟩
  rw [Publisher.cycleAgain, (Publisher.isCounted_cycle _ now₂ r).iff_eq,
    Publisher.store_withBooks]
  exact ScriptedStore.skipped_publish_again_iff hstore h.undisturbed hold hfailed

end Store

/-! ### The two stores -/

/-- **Publishing a report twice.** A report is published, and once more right after that, over a
store in memory or in a directory whose calls nothing disturbs; documents are kept in any lawful
format. The first cycle finds no resource, or one in which no kind of condition occurs twice and
which, in a directory, is recorded under its own name with times to the second; and it does not
fail. Then the second cycle is counted as skipped just if the report keeps its times, and in that
case it asks for the resource, makes no other call, and leaves everything that is stored as it is.
-/
theorem Publisher.skipped_again_iff (r : StatusReport) (now₁ now₂ : Instant) :
    (∀ p : Publisher (ScriptedStore MemoryStore), p.store.script = [] →
      (∀ old, p.store.inner.find? p.name = some old →
        (old.status.conditions.map (·.kind)).Nodup) →
      ¬ (p.cycle now₁ r).IsCounted .failed →
      ((p.cycleAgain now₁ now₂ r).IsCounted .skipped ↔ r.KeepsTimes id now₁ now₂) ∧
      ((p.cycleAgain now₁ now₂ r).IsCounted .skipped →
        (p.cycleAgain now₁ now₂ r).calls = [⟨.get, p.name, none⟩] ∧
        (p.cycleAgain now₁ now₂ r).after.2.inner = (p.cycle now₁ r).after.2.inner)) ∧
    (∀ [DocumentFormat] [LawfulDocumentFormat],
      ∀ p : Publisher (ScriptedStore FileStore), p.store.script = [] →
      (∀ old, p.store.inner.get p.name = .ok old → old.name = p.name ∧
        (old.status.conditions.map (·.kind)).Nodup ∧
        old.status.mapTimes Instant.truncate = old.status) →
      ¬ (p.cycle now₁ r).IsCounted .failed →
      ((p.cycleAgain now₁ now₂ r).IsCounted .skipped ↔ r.KeepsTimes Instant.truncate now₁ now₂) ∧
      ((p.cycleAgain now₁ now₂ r).IsCounted .skipped →
        (p.cycleAgain now₁ now₂ r).calls = [⟨.get, p.name, none⟩] ∧
        (p.cycleAgain now₁ now₂ r).after.2.inner = (p.cycle now₁ r).after.2.inner)) := by
  constructor
  · intro p hscript hnodup hfailed
    refine Cycle.GivesBack.cycleAgain (MemoryStore.recallingStore _)
      ⟨hscript, fun old m hget => ?_, hfailed⟩ now₂
    obtain ⟨-, hfind, -⟩ := MemoryStore.get_eq_ok_iff.mp hget
    exact ⟨MemoryStore.name_of_find? hfind, hnodup old hfind, ResourceStatus.mapTimes_id _⟩
  · intro _ _ p hscript hold hfailed
    refine Cycle.GivesBack.cycleAgain (FileStore.recallingStore _)
      ⟨hscript, fun old m hget => ?_, hfailed⟩ now₂
    have hget' : ResourceStore.get p.name p.store.inner = (.ok old, m) := hget
    rw [FileStore.get_eq] at hget'
    exact hold old (Prod.mk.inj hget').1

/-- A publisher over a store that nothing disturbs. -/
def freshPublisher {σ : Type} (store : σ) : Publisher (ScriptedStore σ) where
  name := "network"
  release := "4.1.0"
  queue := { capacity := 5, capacity_pos := Nat.zero_lt_succ _ }
  store := { inner := store }

/-- A report that takes back what it says first. -/
def wavering : StatusReport where
  conditions := [{ kind := .degraded, status := .true, reason := "RenderError" },
    { kind := .degraded, status := .false }]
  reachedRelease := false

/-- A report with one thing to say. -/
def plainlyWell : StatusReport where
  conditions := [{ kind := .degraded, status := .false }]
  reachedRelease := false

/-- A directory without files. -/
def bareDirectory : FileStore where
  directory := "store"
  tree := { entries := [(.ofNames ["store"], .directory)] }

open scoped Json in
theorem Publisher.skipped_again_wavering :
    ((freshPublisher ({} : MemoryStore)).cycleAgain (.ofSeconds 1) ⟨1500000000⟩
      wavering).IsCounted .skipped ∧
    ((freshPublisher bareDirectory).cycleAgain (.ofSeconds 1) (.ofSeconds 7)
      plainlyWell).IsCounted .skipped := by
  constructor
  · have hkept : wavering.KeepsTimes id (.ofSeconds 1) ⟨1500000000⟩ :=
      StatusReport.keepsTimes_of_truncate_eq (by decide +kernel)
    have hnone : (freshPublisher ({} : MemoryStore)).store.inner.find? "network" = none := rfl
    have hnodup : ∀ old, (freshPublisher ({} : MemoryStore)).store.inner.find? "network" =
        some old → (old.status.conditions.map (·.kind)).Nodup :=
      fun old hold => absurd (hnone.symm.trans hold) (by simp)
    exact ((skipped_again_iff wavering _ _).1 _ rfl hnodup (by decide +kernel)).1.mpr hkept
  · have hkept : plainlyWell.KeepsTimes Instant.truncate (.ofSeconds 1) (.ofSeconds 7) :=
      StatusReport.keepsTimes_of_lastTurn_eq_none (fun k => by cases k <;> decide) _ _ _
    have hnone : (bareDirectory.get "network").toOption.isNone = true := by decide +kernel
    have hold : ∀ old, bareDirectory.get "network" = .ok old → old.name = "network" ∧
        (old.status.conditions.map (·.kind)).Nodup ∧
        old.status.mapTimes Instant.truncate = old.status := by
      intro old hget
      rw [hget] at hnone
      cases hnone
    exact ((skipped_again_iff plainlyWell _ _).2 (freshPublisher bareDirectory) rfl hold
      (by decide +kernel)).1.mpr hkept

/-- A report that does not allow upgrades. -/
def upgradesHeld : StatusReport where
  conditions := [{ kind := .upgradeable, status := .false }]
  reachedRelease := false

/-- Upgrades are disallowed and allowed again in each cycle, so this report is written once more as
soon as the clock shows another second. -/
theorem Publisher.not_skipped_again_upgradesHeld :
    (freshPublisher ({} : MemoryStore)).store.script = [] ∧
    (freshPublisher ({} : MemoryStore)).store.inner.find? "network" = none ∧
    ((freshPublisher ({} : MemoryStore)).cycle (.ofSeconds 1) upgradesHeld).IsCounted .published ∧
    ¬ ((freshPublisher ({} : MemoryStore)).cycleAgain (.ofSeconds 1) (.ofSeconds 2)
      upgradesHeld).IsCounted .skipped ∧
    ((freshPublisher ({} : MemoryStore)).cycleAgain (.ofSeconds 1) (.ofSeconds 2)
      upgradesHeld).calls = [⟨.get, "network", none⟩, ⟨.update, "network", none⟩] := by
  exact ⟨rfl, rfl, by decide +kernel, by decide +kernel, by decide +kernel⟩

end OperatorHealth
