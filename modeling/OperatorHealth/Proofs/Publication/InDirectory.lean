import OperatorHealth.Proofs.Publication.Course
import OperatorHealth.Proofs.Publication.Reflection
import OperatorHealth.Proofs.Store.Frame

/-!
# Cycles on a store in a directory

A cycle writes back the resource that it was given for its name, under the name that this resource
records; and the store writes it under the name that the file of that name records. So every cycle
of a publisher writes one file at most, and always the same one: that of the name that is reached
through what the files record. If the file of the publisher records its own name, or is not there,
this is the file of the publisher, and a cycle that does not fail leaves it with what its report
says. Whatever is read for another name is read as before.

## Main definitions

* `FileStore.LeadsTo`: the name under which a cycle writes.
* `FileCycle`: the courses of a cycle on a store in a directory.

## Main results

* `FileCycle.read_eq`: whatever is read for another name is read as before.
* `FileCycle.leadsTo`: the next cycle writes under the same name.
* `FileCycle.reflects_of_published`, `FileCycle.reflects_of_skipped`: what cycles leave or find.
* `publish_fileCycle`: every cycle takes one of the courses.
-/

namespace OperatorHealth

open FileStore (IsPlain IsOpen ChangedAt)

variable [DocumentFormat] {name owner n : String} {p : Place} {s t : FileStore}

/-! ### The name under which a cycle writes -/

/-- What the files record leads from a name to the name `owner`: the file of the name records a
plain name, whose file records `owner`. A name without a file leads to itself. -/
structure FileStore.LeadsTo (name owner : String) (s : FileStore) : Prop where
  found : ∀ old, s.read name = .ok old →
    IsPlain old.name ∧ ∀ current, s.read old.name = .ok current → current.name = owner
  missing : ∀ n, s.read name = .error (.store (.notFound n)) → owner = name

/-- A name whose file records it, if it records any, leads to itself. -/
theorem FileStore.leadsTo_self (hname : IsPlain name)
    (h : ∀ r, s.read name = .ok r → r.name = name) : s.LeadsTo name name where
  found old hold := by
    rw [h old hold]
    exact ⟨hname, h⟩
  missing _ _ := rfl

/-! ### Courses -/

/-- The courses of a cycle for the resource called `name` on a store in the directory at the place
`p`, where `next` works out the new status from the old one and what is written goes to the file of
`owner`: the outcome, and the store afterwards. -/
inductive FileCycle (name owner : String) (next : ResourceStatus → ResourceStatus) (p : Place)
    (s : FileStore) : Outcome → FileStore → Prop
  /-- A temporary file is all that may be left. -/
  | failed {t : FileStore} (hchanged : ChangedAt [p.child (owner ++ ".yaml.tmp")] s t) :
      FileCycle name owner next p s .failed t
  /-- The resource already says what it should say. -/
  | skipped (old : ClusterOperator) (hold : s.read name = .ok old)
      (hsame : (next old.status).same old.status = true) : FileCycle name owner next p s .skipped s
  /-- The new status is in the file of `owner`, with times to the second. -/
  | published {t : FileStore} (old : ResourceStatus)
      (hchanged : ChangedAt [p.child (owner ++ ".yaml.tmp"), p.child (owner ++ ".yaml")] s t)
      (hread : t.read owner = .ok ⟨owner, (next old).mapTimes Instant.truncate⟩) :
      FileCycle name owner next p s .published t

namespace FileCycle

variable {next : ResourceStatus → ResourceStatus} {outcome : Outcome}

theorem isOpen (h : FileCycle name owner next p s outcome t) (hopen : IsOpen p s) : IsOpen p t := by
  cases h with
  | failed hchanged => exact hchanged.isOpen hopen
  | skipped => exact hopen
  | published old hchanged => exact hchanged.isOpen hopen

/-- **Whatever is read for another name is read as before**, and a cycle that does not come to a new
status leaves everything as it was read. -/
theorem read_eq (h : FileCycle name owner next p s outcome t) (hopen : IsOpen p s)
    (hn : IsPlain n) (hother : n ≠ owner ∨ outcome ≠ .published) : t.read n = s.read n := by
  have hdraft : p.child (n ++ ".yaml") ≠ p.child (owner ++ ".yaml.tmp") :=
    fun heq => FileStore.file_ne_draft (Place.child_inj.mp heq)
  cases h with
  | failed hchanged =>
    exact hchanged.read_eq hopen hn (by simp [Place.ne_child]) (by simpa using hdraft)
  | skipped => rfl
  | published old hchanged =>
    have hfile : p.child (n ++ ".yaml") ≠ p.child (owner ++ ".yaml") :=
      fun heq => hother.elim (· (FileStore.file_injective (Place.child_inj.mp heq))) (· rfl)
    exact hchanged.read_eq hopen hn (by simp [Place.ne_child]) (by simp [hdraft, hfile])

/-- What is read for a plain name is read as before, or was written under that name. -/
theorem read_cases (h : FileCycle name owner next p s outcome t) (hopen : IsOpen p s)
    (hn : IsPlain n) : t.read n = s.read n ∨
      n = owner ∧ ∃ st, t.read owner = .ok ⟨owner, st⟩ := by
  by_cases hother : n ≠ owner ∨ outcome ≠ .published
  · exact .inl (h.read_eq hopen hn hother)
  · simp only [not_or, not_not] at hother
    obtain ⟨rfl, rfl⟩ := hother
    cases h with
    | published old _ hread => exact .inr ⟨rfl, _, hread⟩

/-- **The next cycle writes under the same name.** -/
theorem leadsTo (h : FileCycle name owner next p s outcome t) (hopen : IsOpen p s)
    (hname : IsPlain name) (howner : IsPlain owner) (hs : s.LeadsTo name owner) :
    t.LeadsTo name owner := by
  -- what is read for the recorded name is as before, or has just been written
  have hrecorded (old : ClusterOperator) (hold : IsPlain old.name)
      (hcurrent : ∀ current, s.read old.name = .ok current → current.name = owner)
      (current : ClusterOperator) (hread : t.read old.name = .ok current) :
      current.name = owner := by
    rcases h.read_cases hopen hold with heq | ⟨heq, st, hst⟩
    · exact hcurrent current (heq ▸ hread)
    · rw [heq, hst] at hread
      rw [← Except.ok.inj hread]
  rcases h.read_cases hopen hname with heq | ⟨rfl, st, hst⟩
  · refine ⟨fun old hold => ?_, fun n hn => hs.missing n (heq ▸ hn)⟩
    obtain ⟨hplain, hcurrent⟩ := hs.found old (heq ▸ hold)
    exact ⟨hplain, hrecorded old hplain hcurrent⟩
  · refine FileStore.leadsTo_self hname fun r hr => ?_
    rw [hst] at hr
    rw [← Except.ok.inj hr]

/-! ### What cycles leave -/

variable {report : StatusReport} {release : String} {related : List ObjectReference}
  {now : Instant}

theorem reflects_of_published
    (h : FileCycle name owner (report.applyTo release related now) p s .published t)
    (hreport : report.IsPlain) :
    ∃ st, t.read owner = .ok ⟨owner, st⟩ ∧ st.Reflects report release related := by
  cases h with
  | published old _ hread =>
    exact ⟨_, hread, (hreport.reflects_applyTo release related now old).mapTimes _⟩

theorem reflects_of_skipped
    (h : FileCycle name owner (report.applyTo release related now) p s .skipped t)
    (hreport : report.IsPlain) :
    ∃ r, t.read name = .ok r ∧ r.status.Reflects report release related := by
  cases h with
  | skipped old hold hsame => exact ⟨old, hold, hreport.reflects_of_same hsame⟩

/-! ### Every cycle -/

/-- A write counts as it ends. -/
theorem ofWrite [LawfulDocumentFormat] {r : ClusterOperator} (hopen : IsOpen p s)
    (hplain : IsPlain r.name) (old : ResourceStatus) (hr : r.status = next old) :
    FileCycle name r.name next p s (Outcome.ofWrite (FileStore.write r s)).1
      (Outcome.ofWrite (FileStore.write r s)).2 := by
  rcases hopen.changedAt_write hplain with ⟨fault, t, hwrite, hchanged⟩ | ⟨t, hwrite, hchanged⟩
  · rw [hwrite]
    exact .failed hchanged
  · rw [hwrite]
    have hread := FileStore.read_of_write hwrite
    rw [hr] at hread
    exact .published old hchanged hread

end FileCycle

/-- **Every cycle takes one of the courses.** -/
theorem publish_fileCycle [LawfulDocumentFormat] (hopen : IsOpen p s) (howner : IsPlain owner)
    (hs : s.LeadsTo name owner) (release : String) (related : List ObjectReference) (now : Instant)
    (report : StatusReport) :
    FileCycle name owner (report.applyTo release related now) p s
      (publish name release related now report s).1
      (publish name release related now report s).2 := by
  cases hread : s.read name with
  | ok old =>
    have hget : ResourceStore.get name s = (.ok old, s) := by rw [FileStore.get_eq, hread]
    cases hsame : (report.applyTo release related now old.status).same old.status with
    | true =>
      rw [publish_of_same hget hsame]
      exact .skipped old hread hsame
    | false =>
      rw [publish_of_found hget hsame]
      cases hcurrent : s.read old.name with
      | error fault =>
        rw [FileStore.replaceStatus_of_error (r := { old with
          status := report.applyTo release related now old.status }) hcurrent]
        exact .failed (.refl _ s)
      | ok current =>
        obtain rfl := (hs.found old hread).2 current hcurrent
        rw [FileStore.replaceStatus_of_ok (r := { old with
          status := report.applyTo release related now old.status }) hcurrent]
        exact FileCycle.ofWrite (r := { current with
          status := report.applyTo release related now old.status }) hopen howner old.status rfl
  | error fault =>
    have hget : ResourceStore.get name s = (.error fault, s) := by rw [FileStore.get_eq, hread]
    by_cases hmissing : ∃ n, fault = .store (.notFound n)
    · obtain ⟨n, rfl⟩ := hmissing
      obtain rfl := hs.missing n hread
      rw [publish_of_notFound hget, FileStore.create_of_not_contains
        (r := ⟨owner, report.applyTo release related now {}⟩)
        (FileStore.contains_of_read_notFound hread)]
      exact FileCycle.ofWrite (r := ⟨owner, report.applyTo release related now {}⟩) hopen howner {}
        rfl
    · rw [publish_of_fault hget fun n hn => hmissing ⟨n, hn⟩]
      exact .failed (.refl _ s)

end OperatorHealth
