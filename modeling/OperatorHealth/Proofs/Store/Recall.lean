import OperatorHealth.Proofs.Publication.Course
import OperatorHealth.Proofs.Publication.Reflection

/-!
# Stores that recall what was written

A store recalls what was written if it gives back a resource after it has created or replaced it,
with other times at most. Looking does not change such a store. A store in memory gives back the
times as they are.

On such a store a cycle that does not fail leaves the resource settled: it reflects the report of
the cycle, no kind of condition occurs twice in it, and so every later cycle for that report looks
at it and leaves it alone.

## Main definitions

* `RecallingStore`: what is asked of a store.
* `readStatus`: the status that is read for a name.
* `ScriptedStore.IsSettled`: the resource reflects a report.

## Main results

* `MemoryStore.recallingStore`: stores in memory.
* `ScriptedStore.exists_read_publish`, `ScriptedStore.isSettled_publish`: what a cycle that does not
  fail leaves.
* `ScriptedStore.IsSettled.publish_eq`: a later cycle for the same report.
-/

namespace OperatorHealth

/-! ### What is asked of a store -/

/-- A store gives back a resource called `name` after it was created or replaced, with its times
mapped by `f`, and is not changed by looking. -/
structure RecallingStore (σ : Type) [ResourceStore σ] (name : String) (f : Instant → Instant) :
    Prop where
  get_keeps {s t : σ} {r : ClusterOperator} : ResourceStore.get name s = (.ok r, t) → t = s
  get_create {s t u : σ} {n : String} {status : ResourceStatus} :
    ResourceStore.get name s = (.error (.store (.notFound n)), t) →
      ResourceStore.create ⟨name, status⟩ t = (.ok (), u) →
        ResourceStore.get name u = (.ok ⟨name, status.mapTimes f⟩, u)
  get_replaceStatus {s t : σ} {old : ClusterOperator} {status : ResourceStatus} :
    ResourceStore.get name s = (.ok old, s) → old.name = name →
      ResourceStore.replaceStatus { old with status } s = (.ok (), t) →
        ResourceStore.get name t = (.ok ⟨name, status.mapTimes f⟩, t)

/-! ### Stores in memory -/

theorem ResourceStatus.mapTimes_id (st : ResourceStatus) : st.mapTimes id = st := by
  simp [mapTimes]

namespace MemoryStore

variable {name : String} {s t : MemoryStore} {r : ClusterOperator}

/-- A store that gives an answer refuses no look. -/
theorem get_eq_ok_iff : get name s = (.ok r, t) ↔
    s.getFailure = none ∧ s.find? name = some r ∧ t = s := by
  unfold get
  cases s.getFailure with
  | some message => simp
  | none => cases s.find? name <;> simp [eq_comm]

theorem getFailure_of_notFound {n : String}
    (h : get name s = (.error (.store (.notFound n)), t)) : s.getFailure = none ∧ t = s := by
  unfold get at h
  cases hfailure : s.getFailure with
  | some message => simp [hfailure] at h
  | none => cases hfind : s.find? name <;> simp_all

/-- A store in memory gives back what was written to it. -/
theorem recallingStore (name : String) : RecallingStore MemoryStore name id where
  get_keeps h := (get_eq_ok_iff.mp h).2.2
  get_create {s t u n status} hget hcreate := by
    obtain ⟨hfailure, rfl⟩ := getFailure_of_notFound hget
    rw [ResourceStatus.mapTimes_id]
    rcases create_cases ⟨name, status⟩ t with ⟨hnone, hrun⟩ | ⟨fault, m, hrun, -⟩
    · obtain rfl : _ = u := congrArg Prod.snd (hrun.symm.trans hcreate)
      have hnone' : t.objects.find? (·.name == name) = none := hnone
      exact get_eq_ok_iff.mpr ⟨hfailure, by simp [find?, hnone'], rfl⟩
    · cases hrun.symm.trans hcreate
  get_replaceStatus {s t old status} hget hname hupdate := by
    obtain ⟨hfailure, hfind, -⟩ := get_eq_ok_iff.mp hget
    subst hname
    rw [ResourceStatus.mapTimes_id]
    rcases replaceStatus_cases { old with status } s with
      ⟨old', hold', hrun⟩ | ⟨fault, m, hrun, -⟩
    · obtain rfl : old = old' := Option.some.inj (hfind.symm.trans hold')
      obtain rfl : _ = t := congrArg Prod.snd (hrun.symm.trans hupdate)
      exact get_eq_ok_iff.mpr ⟨hfailure, find?_put_self s ⟨old.name, status⟩, rfl⟩
    · cases hrun.symm.trans hupdate

end MemoryStore

/-! ### What is read -/

section Read

variable {σ : Type} [ResourceStore σ] {name : String} {s : σ}

/-- The status that is read for a name, empty if nothing is read. -/
def readStatus (name : String) (s : σ) : ResourceStatus :=
  match ResourceStore.get name s with
  | (.ok r, _) => r.status
  | (.error _, _) => {}

theorem nodup_readStatus (h : ∀ r m, ResourceStore.get name s = (.ok r, m) →
    (r.status.conditions.map (·.kind)).Nodup) :
    ((readStatus name s).conditions.map (·.kind)).Nodup := by
  unfold readStatus
  split
  · next r m hget => exact h r m hget
  · exact List.nodup_nil

end Read

/-! ### Cycles without a disturbance -/

namespace ScriptedStore

variable {σ : Type} [ResourceStore σ] {name release : String} {related : List ObjectReference}
  {report : StatusReport} {f : Instant → Instant} {now : Instant} {s t : ScriptedStore σ}

omit [ResourceStore σ] in
theorem perform_of_script_nil {α : Type} (h : s.script = []) (call : StoreCall) (name : String)
    (run : σ → Except StoreFault α × σ) :
    perform call name run s = ((run s.inner).1,
      { inner := (run s.inner).2, log := s.log ++ [⟨call, name, faultOf (run s.inner).1⟩] }) := by
  simp [perform, answer, h]

theorem get_of_script_nil (h : s.script = []) (name : String) :
    ResourceStore.get name s = ((ResourceStore.get name s.inner).1,
      { inner := (ResourceStore.get name s.inner).2
        log := s.log ++ [⟨.get, name, faultOf (ResourceStore.get name s.inner).1⟩] }) :=
  perform_of_script_nil h .get name _

/-- Nothing disturbs the store, and its resource called `name` reflects a report and holds no kind
of condition twice. -/
structure IsSettled (name release : String) (related : List ObjectReference)
    (report : StatusReport) (s : ScriptedStore σ) : Prop where
  script : s.script = []
  found : ∃ r, ResourceStore.get name s.inner = (.ok r, s.inner) ∧
    r.status.Reflects report release related ∧ (r.status.conditions.map (·.kind)).Nodup

/-- **A cycle for the report looks at the resource and leaves it alone.** -/
theorem IsSettled.publish_eq (h : s.IsSettled name release related report) (now : Instant) :
    publish name release related now report s =
      (.skipped, { inner := s.inner, log := s.log ++ [⟨.get, name, none⟩] }) := by
  obtain ⟨r, hget, hreflects, hnodup⟩ := h.found
  have hget' : ResourceStore.get name s =
      (.ok r, { inner := s.inner, log := s.log ++ [⟨.get, name, none⟩] }) := by
    rw [get_of_script_nil h.script, hget]
    rfl
  exact publish_of_same hget' (hreflects.same_applyTo hnodup now)

/-- A write that does not fail leaves what is read back then. -/
theorem read_ofWrite {call : StoreCall} {run : σ → Except StoreFault Unit × σ}
    {st : ResourceStatus} (hscript : s.script = [])
    (houtcome : (Outcome.ofWrite (perform call name run s)).1 ≠ .failed)
    (hread : ∀ m, run s.inner = (.ok (), m) → ResourceStore.get name m = (.ok ⟨name, st⟩, m)) :
    (Outcome.ofWrite (perform call name run s)).2.script = [] ∧
      ResourceStore.get name (Outcome.ofWrite (perform call name run s)).2.inner =
        (.ok ⟨name, st⟩, (Outcome.ofWrite (perform call name run s)).2.inner) := by
  rw [perform_of_script_nil hscript] at houtcome ⊢
  rcases hrun : run s.inner with ⟨fault | ok, m⟩
  · simp [hrun, Outcome.ofWrite] at houtcome
  · exact ⟨rfl, hread m hrun⟩

/-- **What a cycle that does not fail leaves**, if it found no resource or one under its own name:
the status that it works out, as it is read back, or what it has found if that says the same. -/
theorem exists_read_publish (hstore : RecallingStore σ name f) (hscript : s.script = [])
    (hname : ∀ r m, ResourceStore.get name s.inner = (.ok r, m) → r.name = name)
    (houtcome : (publish name release related now report s).1 ≠ .failed) :
    (publish name release related now report s).2.script = [] ∧ ∃ st,
      ResourceStore.get name (publish name release related now report s).2.inner =
        (.ok ⟨name, st⟩, (publish name release related now report s).2.inner) ∧
      (st = (report.applyTo release related now (readStatus name s.inner)).mapTimes f ∨
        st = readStatus name s.inner ∧
          (report.applyTo release related now (readStatus name s.inner)).same
            (readStatus name s.inner) = true) := by
  have hget := get_of_script_nil hscript name
  rcases hinner : ResourceStore.get name s.inner with ⟨fault | r, m⟩ <;> rw [hinner] at hget
  · rw [show readStatus name s.inner = {} by simp [readStatus, hinner]]
    by_cases hfault : ∃ n, fault = .store (.notFound n)
    · obtain ⟨n, rfl⟩ := hfault
      rw [publish_of_notFound hget] at houtcome ⊢
      obtain ⟨hscript', hread⟩ := read_ofWrite rfl houtcome
        fun _ hcreate => hstore.get_create hinner hcreate
      exact ⟨hscript', _, hread, .inl rfl⟩
    · rw [publish_of_fault hget fun n hn => hfault ⟨n, hn⟩] at houtcome
      exact absurd rfl houtcome
  · rw [show readStatus name s.inner = r.status by simp [readStatus, hinner]]
    obtain rfl := hstore.get_keeps hinner
    obtain rfl := hname r _ hinner
    cases hsame : (report.applyTo release related now r.status).same r.status with
    | true =>
      rw [publish_of_same hget hsame]
      exact ⟨rfl, r.status, hinner, .inr ⟨rfl, rfl⟩⟩
    | false =>
      rw [publish_of_found hget hsame] at houtcome ⊢
      obtain ⟨hscript', hread⟩ := read_ofWrite rfl houtcome
        fun _ hupdate => hstore.get_replaceStatus hinner rfl hupdate
      exact ⟨hscript', _, hread, .inl rfl⟩

/-- **A cycle that does not fail leaves the resource settled**, if it found none or one under its
own name in which no kind of condition occurs twice. -/
theorem isSettled_publish (hstore : RecallingStore σ name f) (hscript : s.script = [])
    (hreport : report.IsPlain)
    (hold : ∀ r m, ResourceStore.get name s.inner = (.ok r, m) →
      r.name = name ∧ (r.status.conditions.map (·.kind)).Nodup)
    (houtcome : (publish name release related now report s).1 ≠ .failed) :
    (publish name release related now report s).2.IsSettled name release related report := by
  have hnodup := nodup_readStatus fun r m h => (hold r m h).2
  obtain ⟨hscript', st, hread, rfl | ⟨rfl, hsame⟩⟩ :=
    exists_read_publish hstore hscript (fun r m h => (hold r m h).1) houtcome
  · refine ⟨hscript', _, hread, (hreport.reflects_applyTo release related now _).mapTimes f, ?_⟩
    rw [ResourceStatus.map_kind_mapTimes]
    exact StatusReport.nodup_kinds_conditionsAfter hnodup
  · exact ⟨hscript', _, hread, hreport.reflects_of_same hsame, hnodup⟩

end ScriptedStore

end OperatorHealth
