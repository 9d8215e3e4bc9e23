import OperatorHealth.Proofs.Publication.Outcome
import OperatorHealth.Proofs.Publication.Status
import OperatorHealth.Proofs.Store.Scripted

/-!
# The courses that a cycle can take

A cycle ends in one of four ways after it has asked for the resource. On a store in memory whose
calls fail in any pattern this makes six courses. Each of them says which calls are made and how
they end, what that counts as, and what it does to the store. Everything else about single cycles
on such a store is read off the courses.

## Main definitions

* `CycleCourse`: the courses.

## Main results

* `publish_of_same`, `publish_of_found`, `publish_of_notFound`, `publish_of_fault`: a cycle after
  the answer to its first call.
* `CycleCourse.sameContents`, `CycleCourse.writes_of_published`, `CycleCourse.of_notFound`: what
  a cycle leaves alone, and what it writes.
* `CycleCourse.stored`, `CycleCourse.statusOf_cases`: what a cycle leaves of its resource.
* `CycleCourse.holdsOnly`: cycles on a store that holds nothing but their resource.
* `publish_course`: every cycle takes one of the courses.
-/

namespace OperatorHealth

open MemoryStore (SameContents)

/-! ### After the first call -/

section Publish

variable {σ : Type} [ResourceStore σ] {name release : String} {related : List ObjectReference}
  {now : Instant} {report : StatusReport} {s t : σ} {old : ClusterOperator}

theorem publish_of_same (hget : ResourceStore.get name s = (.ok old, t))
    (heq : (report.applyTo release related now old.status).same old.status = true) :
    publish name release related now report s = (.skipped, t) := by
  simp only [publish, hget, heq, if_true]

theorem publish_of_found (hget : ResourceStore.get name s = (.ok old, t))
    (hne : (report.applyTo release related now old.status).same old.status = false) :
    publish name release related now report s = Outcome.ofWrite (ResourceStore.replaceStatus
      { old with status := report.applyTo release related now old.status } t) := by
  simp only [publish, hget, hne, Bool.false_eq_true, if_false]

/-- The new status is not empty, so a resource that is not found is always written. -/
theorem publish_of_notFound {n : String}
    (hget : ResourceStore.get name s = (.error (.store (.notFound n)), t)) :
    publish name release related now report s = Outcome.ofWrite
      (ResourceStore.create ⟨name, report.applyTo release related now {}⟩ t) := by
  simp only [publish, hget, report.not_same_empty, Bool.false_eq_true, if_false]

theorem publish_of_fault {fault : StoreFault}
    (hget : ResourceStore.get name s = (.error fault, t))
    (hfault : ∀ n, fault ≠ .store (.notFound n)) :
    publish name release related now report s = (.failed, t) := by
  rw [publish, hget]
  split
  · next h => cases h
  · next n _ h => cases h; exact absurd rfl (hfault n)
  · next h => cases h; rfl

/-- A skipped cycle has got an answer to its first call, and has made no other. -/
theorem publish_of_skipped (h : (publish name release related now report s).1 = .skipped) :
    ∃ old t, ResourceStore.get name s = (.ok old, t) ∧
      publish name release related now report s = (.skipped, t) := by
  rcases hget : ResourceStore.get name s with ⟨fault | old, t⟩
  · by_cases hfault : ∃ n, fault = .store (.notFound n)
    · obtain ⟨n, rfl⟩ := hfault
      rw [publish_of_notFound hget] at h
      exact absurd h (Outcome.ofWrite_ne_skipped _)
    · rw [publish_of_fault hget fun n hn => hfault ⟨n, hn⟩] at h
      cases h
  · refine ⟨old, t, rfl, ?_⟩
    cases hsame : (report.applyTo release related now old.status).same old.status with
    | true => exact publish_of_same hget hsame
    | false =>
      rw [publish_of_found hget hsame] at h
      exact absurd h (Outcome.ofWrite_ne_skipped _)

end Publish

/-! ### Courses -/

/-- The courses of a cycle for the resource called `name` on the store `s`, where `next` works out
the new status from the old one: the outcome, the calls, and the store afterwards. -/
inductive CycleCourse (name : String) (next : ResourceStatus → ResourceStatus) (s : MemoryStore) :
    Outcome → List CallRecord → MemoryStore → Prop
  /-- The resource cannot be read, and not because it is not found. -/
  | unread {t : MemoryStore} {fault : StoreFault} (hfault : ∀ n, fault ≠ .store (.notFound n))
      (hsame : SameContents t s) : CycleCourse name next s .failed [⟨.get, name, some fault⟩] t
  /-- The resource already says what it should say. -/
  | unchanged {t : MemoryStore} (old : ClusterOperator) (hold : s.find? name = some old)
      (heq : (next old.status).same old.status = true) (hsame : SameContents t s) :
      CycleCourse name next s .skipped [⟨.get, name, none⟩] t
  /-- The resource gets its new status. -/
  | updated {t : MemoryStore} (old : ClusterOperator) (hold : s.find? name = some old)
      (hobjects : t.objects = (s.put { old with status := next old.status }).objects)
      (hcreates : t.creates = s.creates) (hupdates : t.updates = s.updates + 1) :
      CycleCourse name next s .published [⟨.get, name, none⟩, ⟨.update, name, none⟩] t
  /-- The resource should get a new status, and that fails. -/
  | notUpdated {t : MemoryStore} {fault : StoreFault} (hsame : SameContents t s) :
      CycleCourse name next s .failed [⟨.get, name, none⟩, ⟨.update, name, some fault⟩] t
  /-- The resource is not found, and there is none of its name. It is created. -/
  | created {t : MemoryStore} {n : String} (hnone : s.find? name = none)
      (hobjects : t.objects = s.objects ++ [⟨name, next {}⟩])
      (hcreates : t.creates = s.creates + 1) (hupdates : t.updates = s.updates) :
      CycleCourse name next s .published
        [⟨.get, name, some (.store (.notFound n))⟩, ⟨.create, name, none⟩] t
  /-- The resource is not found, or so it is said, and creating it fails. -/
  | notCreated {t : MemoryStore} {n : String} {fault : StoreFault} (hsame : SameContents t s) :
      CycleCourse name next s .failed
        [⟨.get, name, some (.store (.notFound n))⟩, ⟨.create, name, some fault⟩] t

namespace CycleCourse

variable {name : String} {next : ResourceStatus → ResourceStatus} {s t : MemoryStore}
  {outcome : Outcome} {calls : List CallRecord}

/-- A cycle that does not come to a new status leaves everything as it was. -/
theorem sameContents (h : CycleCourse name next s outcome calls t)
    (houtcome : outcome ≠ .published) :
    SameContents t s ∧ calls.filter (·.isWrite) = [] := by
  cases h with
  | unread hfault hsame => exact ⟨hsame, rfl⟩
  | unchanged old hold heq hsame => exact ⟨hsame, rfl⟩
  | updated | created => exact absurd rfl houtcome
  | notUpdated hsame => exact ⟨hsame, rfl⟩
  | notCreated hsame => exact ⟨hsame, rfl⟩

/-- A cycle that comes to a new status has written once, under the name of its resource, and
leaves the resources of all other names as they were. -/
theorem writes_of_published (h : CycleCourse name next s .published calls t) :
    (∃ call, (call = .create ∨ call = .update) ∧
      calls.filter (·.isWrite) = [⟨call, name, none⟩]) ∧
    t.writes = s.writes + 1 ∧ ∀ n, n ≠ name → t.find? n = s.find? n := by
  cases h with
  | updated old hold hobjects hcreates hupdates =>
    refine ⟨⟨.update, .inr rfl, rfl⟩, ?_, fun n hn => ?_⟩
    · simp only [MemoryStore.writes, hcreates, hupdates]
      omega
    · have hname : old.name ≠ n := fun h => hn (h ▸ MemoryStore.name_of_find? hold)
      rw [MemoryStore.find?, hobjects]
      exact MemoryStore.find?_put_of_ne hname
  | created hnone hobjects hcreates hupdates =>
    refine ⟨⟨.create, .inl rfl, rfl⟩, ?_, fun n hn => ?_⟩
    · simp only [MemoryStore.writes, hcreates, hupdates]
      omega
    · rw [MemoryStore.find?, hobjects]
      exact MemoryStore.find?_append_of_ne (Ne.symm hn) s.objects

/-- A cycle that is told that there is no resource does not rest content, and leaves everything as
it was if there is one after all. -/
theorem of_notFound (h : CycleCourse name next s outcome calls t)
    (hcalls : ∃ k ∈ calls, k.call = .get ∧ ∃ n, k.fault = some (.store (.notFound n))) :
    outcome ≠ .skipped ∧ ∀ old, s.find? name = some old → SameContents t s := by
  cases h with
  | unread hfault hsame => exact ⟨by decide, fun _ _ => hsame⟩
  | notUpdated hsame => exact ⟨by decide, fun _ _ => hsame⟩
  | notCreated hsame => exact ⟨by decide, fun _ _ => hsame⟩
  | created hnone => exact ⟨by decide, fun old hold => absurd (hnone.symm.trans hold) (by simp)⟩
  | unchanged | updated => simp at hcalls

/-- A cycle that does not fail leaves the resource there, with the new status, or with the old one
if that says the same. -/
theorem stored (h : CycleCourse name next s outcome calls t) (houtcome : outcome ≠ .failed) :
    ∃ st, t.find? name = some ⟨name, st⟩ ∧ (st = next (s.statusOf name) ∨
      st = s.statusOf name ∧ (next (s.statusOf name)).same (s.statusOf name) = true) := by
  cases h with
  | unread | notUpdated | notCreated => exact absurd rfl houtcome
  | unchanged old hold heq hsame =>
    obtain rfl : old.name = name := MemoryStore.name_of_find? hold
    rw [MemoryStore.statusOf_of_find? hold, hsame.find?_eq]
    exact ⟨old.status, hold, .inr ⟨rfl, heq⟩⟩
  | updated old hold hobjects hcreates hupdates =>
    obtain rfl : old.name = name := MemoryStore.name_of_find? hold
    rw [MemoryStore.statusOf_of_find? hold, MemoryStore.find?, hobjects]
    exact ⟨next old.status, MemoryStore.find?_put_self s ⟨old.name, next old.status⟩, .inl rfl⟩
  | created hnone hobjects hcreates hupdates =>
    have hnone' : s.objects.find? (·.name == name) = none := hnone
    rw [MemoryStore.statusOf_of_find?_none hnone]
    exact ⟨next {}, by simp [MemoryStore.find?, hobjects, hnone'], .inl rfl⟩

/-- A cycle leaves the status of its resource as it is, or gives it the new one. -/
theorem statusOf_cases (h : CycleCourse name next s outcome calls t) :
    t.statusOf name = s.statusOf name ∨ t.statusOf name = next (s.statusOf name) := by
  by_cases houtcome : outcome = .published
  · obtain ⟨st, hst, rfl | ⟨rfl, -⟩⟩ := h.stored (by rw [houtcome]; decide) <;>
      rw [MemoryStore.statusOf_of_find? hst]
    · exact .inr rfl
    · exact .inl rfl
  · exact .inl ((h.sameContents houtcome).1.statusOf_eq name)

/-- What is stored grows by what is created. -/
theorem length_objects (h : CycleCourse name next s outcome calls t) :
    t.objects.length + s.creates = s.objects.length + t.creates := by
  by_cases houtcome : outcome = .published
  · cases houtcome
    cases h with
    | updated old hold hobjects hcreates hupdates =>
      have hname : old.name = name := MemoryStore.name_of_find? hold
      rw [hobjects, MemoryStore.length_put_of_find? (by rw [hname]; exact hold), hcreates]
    | created hnone hobjects hcreates hupdates =>
      rw [hobjects, hcreates, List.length_append, List.length_singleton]
      omega
  · have hsame := (h.sameContents houtcome).1
    rw [hsame.objects, hsame.creates]

/-- On a store that holds nothing else, a cycle keeps what the work on a status keeps. -/
theorem holdsOnly {Q : ResourceStatus → Prop} (h : CycleCourse name next s outcome calls t)
    (hempty : Q (next {})) (hnext : ∀ st, Q st → Q (next st)) (hs : s.HoldsOnly name Q) :
    t.HoldsOnly name Q := by
  by_cases houtcome : outcome = .published
  · cases houtcome
    cases h with
    | updated old hold hobjects hcreates hupdates =>
      rcases hs with hs | ⟨st, hst, hs⟩
      · simp [MemoryStore.find?, hs] at hold
      · have hold : ⟨name, st⟩ = old := by simpa [MemoryStore.find?, hs] using hold
        subst hold
        refine .inr ⟨next st, hnext st hst, ?_⟩
        simp [hobjects, MemoryStore.put, MemoryStore.putIn, hs]
    | created hnone hobjects hcreates hupdates =>
      rcases hs with hs | ⟨st, hst, hs⟩
      · exact .inr ⟨next {}, hempty, by rw [hobjects, hs, List.nil_append]⟩
      · simp [MemoryStore.find?, hs] at hnone
  · exact hs.of_sameContents (h.sameContents houtcome).1

end CycleCourse

section Course

variable {name release : String} {related : List ObjectReference} {now : Instant}
  {report : StatusReport} {s t : ScriptedStore MemoryStore}

/-- A cycle that finds the resource and has to write it. -/
private theorem course_of_found {old : ClusterOperator} (hold : s.inner.find? name = some old)
    (hget : ResourceStore.get name s = (.ok old, t)) (hinner : t.inner = s.inner)
    (hlog : t.log = s.log ++ [⟨.get, name, none⟩])
    (hne : (report.applyTo release related now old.status).same old.status = false) :
    ∃ calls, (publish name release related now report s).2.log = s.log ++ calls ∧
      CycleCourse name (report.applyTo release related now) s.inner
        (publish name release related now report s).1 calls
        (publish name release related now report s).2.inner := by
  -- the name of the resource is the one that was asked for, so the write goes there
  obtain rfl : old.name = name := MemoryStore.name_of_find? hold
  rw [publish_of_found hget hne]
  rcases ScriptedStore.replaceStatus_cases
      { old with status := report.applyTo release related now old.status } t with
    ⟨old', u, hold', hwrite, hinner', hlog'⟩ | ⟨fault, u, hwrite, hsame, hlog'⟩ <;>
    rw [hwrite, Outcome.ofWrite]
  · rw [hinner] at hold' hinner'
    obtain rfl : old = old' := Option.some.inj (hold.symm.trans hold')
    refine ⟨_, by rw [hlog', hlog, List.append_assoc]; rfl, .updated old hold ?_ ?_ ?_⟩
    · rw [hinner']
    · rw [hinner']
      rfl
    · rw [hinner']
  · exact ⟨_, by rw [hlog', hlog, List.append_assoc]; rfl, .notUpdated (hinner ▸ hsame)⟩

/-- A cycle that is told that there is no resource. -/
private theorem course_of_notFound {n : String}
    (hget : ResourceStore.get name s = (.error (.store (.notFound n)), t))
    (hsame : SameContents t.inner s.inner)
    (hlog : t.log = s.log ++ [⟨.get, name, some (.store (.notFound n))⟩]) :
    ∃ calls, (publish name release related now report s).2.log = s.log ++ calls ∧
      CycleCourse name (report.applyTo release related now) s.inner
        (publish name release related now report s).1 calls
        (publish name release related now report s).2.inner := by
  rw [publish_of_notFound hget]
  rcases ScriptedStore.create_cases ⟨name, report.applyTo release related now {}⟩ t with
    ⟨u, hnone, hwrite, hinner, hlog'⟩ | ⟨fault, u, hwrite, hsame', hlog'⟩ <;>
    rw [hwrite, Outcome.ofWrite]
  · refine ⟨_, by rw [hlog', hlog, List.append_assoc]; rfl,
      .created (hsame.find?_eq name ▸ hnone) ?_ ?_ ?_⟩ <;> rw [hinner]
    · rw [hsame.objects]
    · rw [hsame.creates]
    · exact hsame.updates
  · exact ⟨_, by rw [hlog', hlog, List.append_assoc]; rfl, .notCreated (hsame'.trans hsame)⟩

/-- Every cycle takes one of the courses. -/
theorem publish_course (name release : String) (related : List ObjectReference) (now : Instant)
    (report : StatusReport) (s : ScriptedStore MemoryStore) :
    ∃ calls, (publish name release related now report s).2.log = s.log ++ calls ∧
      CycleCourse name (report.applyTo release related now) s.inner
        (publish name release related now report s).1 calls
        (publish name release related now report s).2.inner := by
  rcases ScriptedStore.get_cases name s with ⟨old, t, hold, hget, hinner, hlog⟩ |
    ⟨fault, t, hget, hsame, hlog⟩
  · cases heq : (report.applyTo release related now old.status).same old.status with
    | true =>
      rw [publish_of_same hget heq]
      exact ⟨_, hlog, .unchanged old hold heq (hinner ▸ .refl _)⟩
    | false => exact course_of_found hold hget hinner hlog heq
  · by_cases hfault : ∃ n, fault = .store (.notFound n)
    · obtain ⟨n, rfl⟩ := hfault
      exact course_of_notFound hget hsame hlog
    · have hfault : ∀ n, fault ≠ .store (.notFound n) := fun n hn => hfault ⟨n, hn⟩
      rw [publish_of_fault hget hfault]
      exact ⟨_, hlog, .unread hfault hsame⟩

end Course

end OperatorHealth
