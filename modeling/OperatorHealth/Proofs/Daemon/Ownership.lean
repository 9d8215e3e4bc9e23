import OperatorHealth.Proofs.Daemon.Threads
import OperatorHealth.Proofs.Publication.InDirectory

/-!
# The resource of the daemon

The daemon publishes under the name that the files in its directory lead to from the name in its
settings. If that is the name in its settings, it publishes its own resource and no other: after
each cycle that does not fail this resource is there and says what was reported, and whatever is
read for another name is read as before. If not, a cycle that is counted as published has written
another resource, and its own stays as it was.

## Main definitions

* `FileStore.IsLeftAloneBy`: what others do to the files does not concern the resources.
* `ResourceStatus.Shows`: what a cycle for a report is to leave.

## Main results

* `SharedPublisher.writesUnder`: the cycles of a publisher over a store in a directory.
* `Daemon.publishes_where_recorded`: runs of the daemon.
-/

namespace OperatorHealth

open FileStore (IsPlain IsOpen LeadsTo)

/-! ### What is reported -/

/-- A report that says one thing of each kind at most, and one thing about being degraded. -/
structure StatusReport.IsComplete (report : StatusReport) : Prop extends report.IsPlain where
  degraded : ∃ c, report.degradedConditions = [c]

/-- All reports of a reporter are of this kind. -/
theorem Reporter.isComplete_answer {σ : Type} {r : Reporter σ} {signals : List Signal}
    (h : r.ledger = .after signals) (signal : Signal) : (r.answer signal).2.IsComplete where
  toIsPlain := (isOrderly_answer h signal).toIsPlain
  degraded := by
    have hkind := kind_shown_answer h signal
    rw [ledger_answer] at hkind
    exact ⟨_, degradedConditions_answer hkind⟩

/-- A status says all that a report says, with one word about being degraded, and that upgrades are
allowed. -/
structure ResourceStatus.Shows (report : StatusReport) (st : ResourceStatus) : Prop where
  conveys : ∀ c ∈ report.conditions, Conveys st.conditions c
  degraded : ∃ c, report.degradedConditions = [c] ∧ Conveys st.conditions c
  upgradeable : Conveys st.conditions upgradeAllowed

theorem ResourceStatus.Reflects.shows {report : StatusReport} {release : String}
    {related : List ObjectReference} {st : ResourceStatus}
    (h : st.Reflects report release related) (hreport : report.IsComplete) : st.Shows report where
  conveys := h.conveys
  degraded := by
    obtain ⟨c, hc⟩ := hreport.degraded
    have hmem : c ∈ report.degradedConditions := by simp [hc]
    exact ⟨c, hc, h.conveys c (List.mem_filter.mp hmem).1⟩
  upgradeable := h.upgradeable

/-! ### What others do -/

section Directory

variable [DocumentFormat]

/-- What others do to the files does not concern the resources: the directory of the store stays
where it is, and whatever is read for a plain name is read as before. -/
structure FileStore.IsLeftAloneBy (f : FileStore → FileStore) : Prop where
  isOpen {p : Place} {s : FileStore} : IsOpen p s → IsOpen p (f s)
  read_eq (s : FileStore) {n : String} : IsPlain n → (f s).read n = s.read n

theorem FileStore.LeadsTo.congr {name owner : String} {s t : FileStore} (h : s.LeadsTo name owner)
    (hname : IsPlain name) (heq : ∀ n, IsPlain n → t.read n = s.read n) :
    t.LeadsTo name owner where
  found old hold := by
    obtain ⟨hplain, hcurrent⟩ := h.found old (heq name hname ▸ hold)
    exact ⟨hplain, fun current hread => hcurrent current (heq _ hplain ▸ hread)⟩
  missing n hn := h.missing n (heq name hname ▸ hn)

/-! ### Publishers over a store in a directory -/

/-- A cycle that a publisher runs is counted as one outcome, and takes the course to it. -/
theorem FileCycle.of_cycle [LawfulDocumentFormat] {q : Publisher FileStore} {p : Place}
    {owner : String} (hopen : IsOpen p q.store) (howner : IsPlain owner)
    (hlead : q.store.LeadsTo q.name owner) (now : Instant) (r : StatusReport) :
    ∃ outcome, (q.cycle now r).IsCounted outcome ∧
      FileCycle q.name owner (r.applyTo q.release q.related now) p q.store outcome
        (q.cycle now r).after.2 := by
  refine ⟨_, q.isCounted_cycle now r, ?_⟩
  rw [q.store_cycle]
  exact publish_fileCycle hopen howner hlead q.release q.related now r

/-- What is known of a cycle that writes under the name `owner` for the resource called `name`, in a
run from the store `start`. -/
structure Cycle.WritesUnder (start : FileStore) (name owner : String) (c : Cycle FileStore) :
    Prop where
  published : c.IsCounted .published →
    ∃ st, c.after.2.read owner = .ok ⟨owner, st⟩ ∧ st.Shows c.report
  skipped : c.IsCounted .skipped →
    ∃ r, c.after.2.read name = .ok r ∧ r.status.Shows c.report
  others : ∀ n, IsPlain n → n ≠ owner → c.after.2.read n = start.read n

namespace SharedPublisher

variable {ι : Type} [DecidableEq ι] {s₀ s : SharedPublisher ι FileStore} {p : Place}
  {name owner release : String} {capacity : Nat} {related : List ObjectReference}
  {store : FileStore} {es : List (Event ι FileStore)}

/-- **All cycles write under the name that the files lead to** at first, and no other resource is
ever changed. -/
theorem writesUnder [LawfulDocumentFormat]
    (hnew : new? name release capacity related store = .ok s₀) (hrun : s₀.run? es = some s)
    (hes : OnlyHandsOver StatusReport.IsComplete es)
    (hothers : ∀ f, Event.arrange f ∈ es → FileStore.IsLeftAloneBy f) (hopen : IsOpen p store)
    (hname : IsPlain name) (howner : IsPlain owner) (hlead : store.LeadsTo name owner) :
    (∀ n, IsPlain n → n ≠ owner → s.publisher.store.read n = store.read n) ∧
      ∀ c ∈ s.cycles, c.WritesUnder store name owner := by
  refine And.imp_left (fun h => h.2.2) (cycles_induction (P := fun t => IsOpen p t ∧
    t.LeadsTo name owner ∧ ∀ n, IsPlain n → n ≠ owner → t.read n = store.read n)
    hnew hrun hes ⟨hopen, hlead, fun _ _ _ => rfl⟩ ?_ ?_)
  · rintro f hf t ⟨hopen, hlead, hreads⟩
    have halone := hothers f hf
    exact ⟨halone.isOpen hopen, hlead.congr hname fun n hn => halone.read_eq t hn,
      fun n hn hne => (halone.read_eq t hn).trans (hreads n hn hne)⟩
  · rintro q now r rfl rfl hr ⟨hopen, hlead, hreads⟩
    obtain ⟨outcome, hcounted, hcourse⟩ := FileCycle.of_cycle hopen howner hlead now r
    have hkept (n : String) (hn : IsPlain n) (hne : n ≠ owner) :
        (q.cycle now r).after.2.read n = store.read n :=
      (hcourse.read_eq hopen hn (.inl hne)).trans (hreads n hn hne)
    refine ⟨⟨hcourse.isOpen hopen, hcourse.leadsTo hopen hname howner hlead, hkept⟩,
      fun hpublished => ?_, fun hskipped => ?_, hkept⟩
    · obtain rfl := hcounted.iff_eq.mp hpublished
      obtain ⟨st, hread, hst⟩ := hcourse.reflects_of_published hr.toIsPlain
      exact ⟨st, hread, hst.shows hr⟩
    · obtain rfl := hcounted.iff_eq.mp hskipped
      obtain ⟨old, hread, hold⟩ := hcourse.reflects_of_skipped hr.toIsPlain
      exact ⟨old, hread, hold.shows hr⟩

end SharedPublisher

/-! ### Runs of the daemon -/

namespace Daemon

open LiveReporter (ofReporter)

variable {ι : Type} {settings : Settings} {store : FileStore} {d : Daemon}

/-- The publisher of a daemon is a new one, and nothing has been said yet. -/
theorem shared_of_assemble (h : assemble settings store = .ok d) :
    SharedPublisher.new? settings.operatorName settings.release settings.queueCapacity
        settings.relatedObjects store = .ok (ofReporter (ι := ι) d.reporter).shared ∧
    (ofReporter (ι := ι) d.reporter).ledger = .after [] := by
  obtain ⟨hpos, daemonSets, deployments, -, -, rfl⟩ := assemble_eq_ok_iff.mp h
  simp [SharedPublisher.new?, Publisher.new?, Publisher.setRelated, BoundedQueue.new?, hpos,
    Except.map, ofReporter, assembled, DegradedLedger.after]

variable [LawfulDocumentFormat] [DecidableEq ι] {s : LiveReporter ι FileStore}

/-- The cycles of the daemon write under the name that the files lead to from the name in its
settings. -/
theorem writesUnder_of_reaches {p : Place} {owner : String}
    (hassemble : assemble settings store = .ok d) (hopen : IsOpen p store)
    (hreach : (ofReporter d.reporter).Reaches FileStore.IsLeftAloneBy s)
    (hname : IsPlain settings.operatorName) (howner : IsPlain owner)
    (hlead : store.LeadsTo settings.operatorName owner) :
    (∀ n, IsPlain n → n ≠ owner → s.shared.publisher.store.read n = store.read n) ∧
      ∀ c ∈ s.shared.cycles, c.WritesUnder store settings.operatorName owner := by
  obtain ⟨es, hrun, hothers⟩ := hreach
  obtain ⟨hnew, hledger⟩ := shared_of_assemble (ι := ι) hassemble
  obtain ⟨events, hevents, hgiven, harranged, -⟩ := LiveReporter.exists_run?_shared_of hrun hledger
    fun _ _ signal hr => Reporter.isComplete_answer hr signal
  exact SharedPublisher.writesUnder hnew hevents hgiven (fun f hf => hothers f (harranged f hf))
    hopen hname howner hlead

end Daemon

end Directory

/-! ### Directories with files in JSON -/

namespace Daemon

open LiveReporter (ofReporter)

open scoped Json

/-- Settings for the operator called "network", and resources in a directory under the names of
their files. -/
def directoryWith (files : List (String × ClusterOperator)) : FileTree where
  entries :=
    [(Place.current.child "settings.yaml", .file (Json.write (.record
      [("cluster_operator", .record [("name", .scalar "network")]),
        ("store", .record [("path", .scalar "store")]),
        ("workloads", .record [("state_file", .scalar "snapshot.yaml")])]))),
      (Place.current.child "store", .directory)] ++
    files.map fun (name, r) =>
      ((Place.current.child "store").child (name ++ ".yaml"), .file (Json.write r.encode))

/-- A directory with the resource of another operator. -/
def neighbourhood : FileTree := directoryWith [("dns", { name := "dns" })]

/-- The daemon can be set up in this directory, where its own resource is missing, and its first two
cycles come to new statuses. -/
theorem exists_neighbourhood : ∃ settings store made d,
    Settings.load none neighbourhood "settings.yaml" = .ok settings ∧
    FileStore.open? settings.storePath neighbourhood = (.ok store, made) ∧
    assemble settings store = .ok d ∧ settings.operatorName = "network" ∧
    (∀ r, store.read "network" ≠ .ok r) ∧
    ((d.start (.ofSeconds 1)).turn ⟨id, .ofSeconds 2⟩).reporter.publisher.tally =
      { published := 2 } := by
  have hend : ((Settings.load none neighbourhood "settings.yaml").toOption.bind fun settings =>
      (FileStore.open? settings.storePath neighbourhood).1.toOption.bind fun store =>
        (assemble settings store).toOption.map fun d =>
          (settings.operatorName, (store.read "network").toOption.map (·.name),
            ((d.start (.ofSeconds 1)).turn ⟨id, .ofSeconds 2⟩).reporter.publisher.tally)) =
      some ("network", none, { published := 2 }) := by decide +kernel
  obtain ⟨settings, hsettings, hend⟩ := Option.bind_eq_some_iff.mp hend
  obtain ⟨store, hstore, hend⟩ := Option.bind_eq_some_iff.mp hend
  obtain ⟨d, hd, hend⟩ := Option.map_eq_some_iff.mp hend
  simp only [Prod.mk.injEq] at hend
  obtain ⟨hoperator, hmissing, htally⟩ := hend
  refine ⟨settings, store, (FileStore.open? settings.storePath neighbourhood).2, d,
    Except.toOption_eq_some.mp hsettings, Prod.ext (Except.toOption_eq_some.mp hstore) rfl,
    Except.toOption_eq_some.mp hd, hoperator, fun r hr => ?_, htally⟩
  simp [hr, Except.toOption] at hmissing

/-- A directory in which the file of the daemon records the name of another operator. -/
def misfiled : FileTree :=
  directoryWith [("network", { name := "dns" }), ("dns", { name := "dns" })]

/-- What has become of both resources when the daemon has started. -/
theorem launch_misfiled :
    (launch ["settings.yaml"] none (.ofSeconds 1) misfiled).1.toOption.bind (fun d =>
      (d.reporter.publisher.store.read "network").toOption.map fun r =>
        (d.settings.operatorName, d.reporter.publisher.tally,
          findCondition .upgradeable r.status.conditions,
          decide ((d.reporter.publisher.store.read "dns").toOption =
            ((FileStore.mk "store" misfiled).read "dns").toOption))) =
      some ("network", { published := 1 }, none, false) := by decide +kernel

end Daemon

end OperatorHealth
