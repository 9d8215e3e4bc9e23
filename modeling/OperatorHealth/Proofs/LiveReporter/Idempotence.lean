import OperatorHealth.Proofs.Json.RoundTrip
import OperatorHealth.Proofs.LiveReporter.Serving
import OperatorHealth.Proofs.LiveReporter.Sync
import OperatorHealth.Proofs.Store.File

/-!
# Looking again changes nothing

A reporter that goes on looking at the workloads, while what it keeps and sees stays the same, gives
the same report over and over. Once a cycle for that report has not failed, the resource is settled.
Every later cycle asks for the resource, finds that it says everything already, and is counted as
skipped, whatever the clock shows; nothing is written and nothing stored changes. Starts and stops
make no difference. This holds over a store in memory and over a store in a directory, which gives
back times to the second.

## Main definitions

* `LiveReporter.OnlyLooks`: events in which nothing is told but to look at the workloads.
* `LiveReporter.IsAtRest`, `LiveReporter.lookAt`: nothing is left to do, and a look from there.
* `LiveReporter.StaysPut`: what is asked of the time after a cycle.

## Main results

* `LiveReporter.IsAtRest.exists_syncs`: a reporter at rest can look any number of times.
* `LiveReporter.Syncs.staysPut`: later cycles on a store that recalls what was written.
* `LiveReporter.idempotent`: later cycles on stores in memory and in a directory.
-/

namespace OperatorHealth

section Store

variable {σ : Type} [ResourceStore σ] {f : Instant → Instant}

/-! ### Single cycles -/

/-- Nothing disturbs a cycle, it finds the resource called `name` in order, if any, and does not
fail. -/
structure Cycle.GoesWell (name : String) (c : Cycle (ScriptedStore σ)) : Prop where
  undisturbed : c.before.2.script = []
  in_order : ∀ r m, ResourceStore.get name c.before.2.inner = (.ok r, m) →
    r.name = name ∧ (r.status.conditions.map (·.kind)).Nodup
  not_failed : ¬ c.IsCounted .failed

section Publisher

variable {p : Publisher (ScriptedStore σ)} {now : Instant} {r : StatusReport}

/-- A cycle that goes well leaves the resource settled. -/
theorem Cycle.GoesWell.isSettled (hstore : RecallingStore σ p.name f) (hr : r.IsPlain)
    (h : (p.cycle now r).GoesWell p.name) :
    (p.cycle now r).after.2.IsSettled p.name p.release p.related r := by
  have hafter : (p.cycle now r).after = _ := p.after_cycle now r
  have hcounted : (p.cycle now r).IsCounted _ := congrArg Prod.fst hafter
  rw [hafter]
  refine ScriptedStore.isSettled_publish hstore h.undisturbed hr h.in_order fun hfailed => ?_
  rw [hfailed] at hcounted
  exact h.not_failed hcounted

/-- A cycle for a report that the resource is settled for. -/
theorem Publisher.cycle_of_isSettled (h : p.store.IsSettled p.name p.release p.related r)
    (now : Instant) : (p.cycle now r).IsCounted .skipped ∧
      (p.cycle now r).calls = [⟨.get, p.name, none⟩] ∧
      (p.cycle now r).after.2.inner = p.store.inner ∧
      (p.cycle now r).after.2.IsSettled p.name p.release p.related r := by
  have hafter : (p.cycle now r).after = _ := p.after_cycle now r
  rw [h.publish_eq] at hafter
  refine ⟨congrArg Prod.fst hafter, ?_, ?_, ?_⟩
  · rw [Cycle.calls, hafter]
    exact List.drop_left
  · rw [hafter]
  · rw [hafter]
    exact ⟨rfl, h.found⟩

end Publisher

end Store

namespace LiveReporter

/-! ### Looks -/

section Looks

variable {ι σ : Type} [DecidableEq ι] [ResourceStore σ] {s t t' u : LiveReporter ι σ}
  {e : Event ι σ} {es : List (Event ι σ)} {i : ι} {r : StatusReport}

/-- If a thread tells the reporter something, it is to look at the workloads, and if something else
happens to the publisher, it is a start, a stop, or an action of a call or of the worker. -/
def Event.IsLook : Event ι σ → Prop
  | .tell _ .workloads => True
  | .pass (.request ..) _ => True
  | .pass (.act _) _ => True
  | .pass (.work _) _ => True
  | _ => False

/-- Threads tell the reporter nothing but to look at the workloads, and neither what it looks at nor
the store is changed from outside. -/
def OnlyLooks (es : List (Event ι σ)) : Prop := ∀ e ∈ es, e.IsLook

omit [DecidableEq ι] [ResourceStore σ] in
theorem not_isRelate_of_isLook (h : e.IsLook) : ¬ e.IsRelate := by
  unfold Event.IsLook at h
  unfold Event.IsRelate
  grind

/-- A look at the workloads changes only what is remembered of failures of pods. -/
theorem Step.alike (h : t.Step e t') (he : e.IsLook) : t'.reporter.Alike t.reporter := by
  cases h with
  | tell i signal hfree hover =>
    cases signal with
    | workloads => exact ⟨rfl, rfl, rfl, rfl, rfl, rfl, rfl, rfl⟩
    | _ => exact he.elim
  | @pass event shared hevent hstep =>
    obtain ⟨hname, hrelease⟩ := hstep.name_release_eq
    have hrelated := hstep.related_eq fun rs hrs => by subst hrs; exact he.elim
    exact ⟨hname, hrelease, hrelated, rfl, rfl, rfl, rfl, rfl⟩
  | _ => exact he.elim

/-- The books change in a look only when the worker runs a cycle. -/
theorem Step.books_of_isLook (h : t.Step e t') (he : e.IsLook) :
    (t'.shared.cycles = t.shared.cycles ∧
      t'.shared.publisher.store = t.shared.publisher.store) ∨
    ∃ now r, t.shared.publisher.worker = .publishing r ∧
      t'.shared.cycles = t.shared.cycles ++ [t.shared.publisher.cycle now r] ∧
      t'.shared.publisher.store = (t.shared.publisher.cycle now r).after.2 := by
  cases h with
  | tell i signal hfree hover => exact .inl ⟨rfl, rfl⟩
  | pass hevent hstep =>
    rcases hstep.books with
      ⟨hcycles, -, hstored⟩ | ⟨f, rfl, -⟩ | ⟨now, r, -, hworker, hcycles, hafter⟩
    · exact .inl ⟨hcycles, hstored⟩
    · exact he.elim
    · exact .inr ⟨now, r, hworker, hcycles, congrArg Prod.snd hafter⟩
  | _ => exact he.elim

omit [DecidableEq ι] [ResourceStore σ] in
/-- What a look hands over is the report on the workloads. -/
theorem Event.IsLook.eq_of_mem_handOvers (he : e.IsLook) (h : (i, r) ∈ e.handOvers t) :
    r = (t.reporter.answer .workloads).2 := by
  cases e with
  | tell j signal =>
    cases signal with
    | workloads => exact (Prod.mk.inj (List.mem_singleton.mp h)).2
    | _ => exact he.elim
  | _ => cases h

theorem alike (hrun : s.run? es = some t) (hes : OnlyLooks es) : t.reporter.Alike s.reporter :=
  run?_induction (P := fun t => t.reporter.Alike s.reporter) hrun (.refl _) fun e he _ _ h ht =>
    (h.alike (hes e he)).trans ht

/-- All that is handed over in looks is the same report. -/
theorem exists_begun (hrun : s.run? es = some t) (hes : OnlyLooks es) : ∃ handed,
    t.shared.begun = s.shared.begun ++ handed ∧
      ∀ i r, (i, r) ∈ handed → r = (s.reporter.answer .workloads).2 := by
  refine (run?_induction (P := fun t => t.reporter.Alike s.reporter ∧ ∃ handed,
    t.shared.begun = s.shared.begun ++ handed ∧
      ∀ i r, (i, r) ∈ handed → r = (s.reporter.answer .workloads).2) hrun
    ⟨.refl _, [], (List.append_nil _).symm, nofun⟩ fun e he t t' h ht => ?_).2
  obtain ⟨halike, handed, hbegun, hhanded⟩ := ht
  refine ⟨(h.alike (hes e he)).trans halike, handed ++ e.handOvers t, ?_, fun i r hr => ?_⟩
  · rw [h.begun_eq, hbegun, List.append_assoc]
  · rcases List.mem_append.mp hr with hr | hr
    · exact hhanded i r hr
    · rw [(hes e he).eq_of_mem_handOvers hr, halike.answer_eq]

/-- The report in hand is that of a look, if the cycles of all reports from before were run. -/
theorem eq_of_publishing (hs : s.IsReached) (hfree : s.isFree = true) (hrun : s.run? es = some t)
    (hes : OnlyLooks es) (hworker : t.shared.publisher.worker = .publishing r)
    (hlength : s.shared.entered.length ≤ t.shared.cycles.length) :
    r = (s.reporter.answer .workloads).2 := by
  obtain ⟨handed, hbegun, hhanded⟩ := exists_begun hrun hes
  obtain ⟨later, -, hfirst, hentered⟩ := hs.exists_since hfree hrun hbegun
  have hr := SharedPublisher.report_of_publishing (hs.run hrun).shared_inOrder.1 hworker
  rw [List.getElem?_map, hentered, List.getElem?_append_right hlength] at hr
  obtain ⟨⟨i, r'⟩, hfound, hr⟩ := Option.map_eq_some_iff.mp hr
  obtain rfl : r' = r := hr
  obtain ⟨a, ha, hanswer⟩ := List.mem_map.mp (List.mem_of_getElem? hfound)
  exact hhanded i r' (hanswer ▸ hfirst.subset
    (List.mem_map_of_mem (List.mem_of_mem_filter ha)))

/-! ### Looks of a reporter at rest -/

/-- One thread has the reporter to itself, and its publisher waits for reports. -/
structure IsAtRest (i : ι) (s : LiveReporter ι σ) : Prop extends s.IsIdle i where
  isAtRest : s.shared.publisher.IsAtRest

/-- A look at the workloads and the work on its report. -/
def lookAt (i : ι) (now : Instant) : List (Event ι σ) :=
  Event.wholeTell i .workloads ++ Event.workOn now

/-- The cycle of a look at the workloads by a reporter at rest. -/
def lookCycle (s : LiveReporter ι σ) (now : Instant) : Cycle σ :=
  s.shared.publisher.cycle now (s.reporter.answer .workloads).2

/-- A reporter at rest can look at the workloads. It has the cycle of that and is at rest again. -/
theorem IsAtRest.exists_run?_lookAt (h : s.IsAtRest i) (now : Instant) :
    ∃ u, s.run? (lookAt i now) = some u ∧ u.IsAtRest i ∧
      u.shared.answers = s.shared.answers ++ [⟨i, (s.reporter.answer .workloads).2, true⟩] ∧
      u.shared.cycles = s.shared.cycles ++ [s.lookCycle now] := by
  obtain ⟨t, htell, hidle, hreporter, hcycles, hanswers⟩ :=
    exists_run?_wholeTell h.toIsIdle h.isAtRest.toIsServing h.isAtRest.isFull_eq .workloads
  obtain ⟨hserving, hworker, hitems, hpending⟩ := h.isAtRest
  have hpublisher : t.shared.publisher = _ := congrArg (·.publisher) hreporter
  obtain ⟨u, hwork, hidle', hrest, hanswers', hcycles'⟩ := exists_run?_workOn
    (r := (s.reporter.answer .workloads).2) hidle
    (by rw [hpublisher]; exact ⟨hserving.running, hserving.place, hserving.isOpen, hserving.live⟩)
    (by rw [hpublisher]; exact hworker)
    (by rw [hpublisher]; simp [BoundedQueue.append, hitems])
    (by rw [hpublisher]; simp [hpending]) now
  refine ⟨u, run?_append htell hwork, ⟨hidle', hrest⟩, hanswers'.trans hanswers, ?_⟩
  rw [hcycles', hcycles, hpublisher]
  rfl

/-- A reporter at rest can look at the workloads any number of times. -/
theorem IsAtRest.exists_run?_looks (h : s.IsAtRest i) (nows : List Instant) :
    ∃ u, s.run? (nows.flatMap (lookAt i)) = some u ∧ u.IsAtRest i ∧
      s.shared.cycles <+: u.shared.cycles ∧
      u.shared.cycles.length = s.shared.cycles.length + nows.length := by
  induction nows generalizing s with
  | nil => exact ⟨s, rfl, h, List.prefix_rfl, rfl⟩
  | cons now nows ih =>
    obtain ⟨t, hrun, ht, -, hcycles⟩ := h.exists_run?_lookAt now
    obtain ⟨u, hrun', hu, hfirst, hlength⟩ := ih ht
    rw [hcycles] at hfirst hlength
    refine ⟨u, run?_append hrun hrun', hu, (List.prefix_append ..).trans hfirst, ?_⟩
    rw [hlength, List.length_append, List.length_singleton, List.length_cons]
    omega

omit [DecidableEq ι] [ResourceStore σ] in
theorem onlyLooks_looks (i : ι) (now : Instant) (nows : List Instant) :
    OnlyLooks (σ := σ) (Event.acts i 4 ++ Event.workOn now ++ nows.flatMap (lookAt i)) := by
  intro e he
  simp only [lookAt, Event.wholeTell, Event.acts, Event.workOn, Event.works, List.mem_append,
    List.mem_flatMap, List.mem_cons, List.mem_replicate] at he
  rcases he with (⟨-, rfl⟩ | ⟨-, rfl⟩) | ⟨now', -, (rfl | ⟨-, rfl⟩) | ⟨-, rfl⟩⟩ <;> trivial

/-- The first of several looks of a reporter at rest. -/
theorem IsAtRest.exists_syncs (h : s.IsAtRest i) (hs : s.IsReached) (now : Instant)
    (nows : List Instant) : ∃ u,
      s.Syncs i (Event.acts i 4 ++ Event.workOn now ++ nows.flatMap (lookAt i)) u
        (s.lookCycle now) ∧
      u.shared.cycles.length = s.shared.cycles.length + nows.length + 1 := by
  obtain ⟨t, hrun, ht, hanswers, hcycles⟩ := h.exists_run?_lookAt now
  obtain ⟨u, hlater, -, ⟨rest, hrest⟩, hlength⟩ := ht.exists_run?_looks nows
  obtain ⟨more, hmore⟩ := answers_prefix hlater
  have hentered : s.shared.entered.length = s.shared.cycles.length := by
    have horder := congrArg List.length hs.shared_inOrder.1
    simpa [SharedPublisher.processed, h.isAtRest.items, h.isAtRest.worker] using horder
  rw [hcycles] at hrest hlength
  refine ⟨u, ⟨hs, run?_append hrun hlater, ?_, ?_, ?_⟩, ?_⟩
  · exact fun e he => not_isRelate_of_isLook (onlyLooks_looks i now nows e he)
  · rw [← hmore, hanswers]
    simp
  · rw [hentered, ← hrest]
    simp
  · rw [hlength, List.length_append, List.length_singleton]
    omega

end Looks

/-! ### The time after the first look -/

section Settling

variable {ι σ : Type} [DecidableEq ι] [ResourceStore σ] {f : Instant → Instant}
  {s t t' u : LiveReporter ι (ScriptedStore σ)} {e : Event ι (ScriptedStore σ)}
  {es : List (Event ι (ScriptedStore σ))} {i : ι} {c : Cycle (ScriptedStore σ)}

/-- The cycle `c` has the place `k`. All cycles after it are counted as skipped, have asked for the
resource called `name` and have made no other call, and have left alone what is stored since `c`. -/
structure StaysPut (name : String) (k : Nat) (c : Cycle (ScriptedStore σ))
    (u : LiveReporter ι (ScriptedStore σ)) : Prop where
  later : ∀ (j : Nat) d, k < j → u.shared.cycles[j]? = some d → d.IsCounted .skipped ∧
    d.calls = [⟨.get, name, none⟩] ∧ d.after.2.inner = c.after.2.inner
  stored : u.shared.publisher.store.inner = c.after.2.inner

/-- If the cycle of a first look that was made in the state `s` has gone well, nothing has changed
since, and the resource is settled for the report on the workloads. -/
def Settles (s t : LiveReporter ι (ScriptedStore σ)) : Prop :=
  ∀ c, t.shared.cycles[s.shared.entered.length]? = some c →
    c.GoesWell s.reporter.publisher.name →
      StaysPut s.reporter.publisher.name s.shared.entered.length c t ∧
        t.shared.publisher.store.IsSettled s.reporter.publisher.name s.reporter.publisher.release
          s.reporter.publisher.related (s.reporter.answer .workloads).2

/-- No cycle has been run for the first look yet. -/
theorem IsReached.settles (hs : s.IsReached) : s.Settles s := by
  intro c hc
  have hlt := (List.getElem?_eq_some_iff.mp hc).1
  exact absurd hlt (SharedPublisher.length_cycles_le hs.shared_inOrder.1).not_gt

omit [DecidableEq ι] in
/-- The worker has run one more cycle, for the report on the workloads if those of all earlier
reports were run. -/
theorem Settles.of_cycle {signals : List Signal}
    (hstore : RecallingStore σ s.reporter.publisher.name f)
    (hledger : s.reporter.ledger = .after signals) (ht : s.Settles t)
    (halike : t.reporter.Alike s.reporter) {now : Instant} {r : StatusReport}
    (hlook : s.shared.entered.length ≤ t.shared.cycles.length →
      r = (s.reporter.answer .workloads).2)
    (hcycles : t'.shared.cycles = t.shared.cycles ++ [t.shared.publisher.cycle now r])
    (hstored : t'.shared.publisher.store = (t.shared.publisher.cycle now r).after.2) :
    s.Settles t' := by
  intro c hc hwell
  have hname : t.shared.publisher.name = s.reporter.publisher.name := halike.name
  have hrelease : t.shared.publisher.release = s.reporter.publisher.release := halike.release
  have hrelated : t.shared.publisher.related = s.reporter.publisher.related := halike.related
  rw [hcycles] at hc
  rcases getElem?_append_singleton_cases hc with ⟨hlt, hfirst⟩ | ⟨heq, rfl⟩
  · -- the cycle of the first look has been run, and this is one more
    obtain rfl := hlook hlt.le
    obtain ⟨hput, hsettled⟩ := ht c hfirst hwell
    rw [← hname, ← hrelease, ← hrelated] at hsettled
    obtain ⟨hskipped, hcalls, hinner, hsettled'⟩ := Publisher.cycle_of_isSettled hsettled now
    rw [hname] at hcalls
    refine ⟨⟨fun j d hj hd => ?_, by rw [hstored, hinner, hput.stored]⟩, ?_⟩
    · rw [hcycles] at hd
      rcases getElem?_append_singleton_cases hd with ⟨-, hd⟩ | ⟨-, rfl⟩
      · exact hput.later j d hj hd
      · exact ⟨hskipped, hcalls, hinner.trans hput.stored⟩
    · rw [hstored, ← hname, ← hrelease, ← hrelated]
      exact hsettled'
  · -- this is the cycle of the first look
    obtain rfl := hlook heq.le
    refine ⟨⟨fun j d hj hd => ?_, by rw [hstored]⟩, ?_⟩
    · rw [hcycles, List.getElem?_eq_none (by simp; omega)] at hd
      cases hd
    · rw [← hname] at hwell hstore ⊢
      rw [hstored, ← hrelease, ← hrelated]
      exact hwell.isSettled hstore (Reporter.isPlain_answer_workloads hledger)

omit [DecidableEq ι] in
/-- No cycle has been run. -/
theorem Settles.of_books (ht : s.Settles t) (hcycles : t'.shared.cycles = t.shared.cycles)
    (hstored : t'.shared.publisher.store = t.shared.publisher.store) : s.Settles t' := by
  intro c hc hwell
  rw [hcycles] at hc
  obtain ⟨hput, hsettled⟩ := ht c hc hwell
  exact ⟨⟨fun j d hj hd => hput.later j d hj (hcycles ▸ hd), by rw [hstored, hput.stored]⟩,
    by rw [hstored]; exact hsettled⟩

theorem settles (hs : s.IsReached) (hfree : s.isFree = true)
    (hstore : RecallingStore σ s.reporter.publisher.name f) (hrun : s.run? es = some u)
    (hes : OnlyLooks es) : s.Settles u := by
  obtain ⟨signals, hledger⟩ := hs.ledger_eq
  refine foldlM_induction_of_split hrun hs.settles
    fun before e after t t' hsplit hbefore hstep ht => ?_
  have hbefore' : OnlyLooks before := fun e' he' => hes e' (by simp [hsplit, he'])
  have he : e.IsLook := hes e (by simp [hsplit])
  rcases (step?_eq_some_iff.mp hstep).2.books_of_isLook he with
    ⟨hcycles, hstored⟩ | ⟨now, r, hworker, hcycles, hstored⟩
  · exact ht.of_books hcycles hstored
  · exact ht.of_cycle hstore hledger (alike hbefore hbefore')
      (eq_of_publishing hs hfree hbefore hbefore' hworker) hcycles hstored

/-- **Later cycles on a store that recalls what was written.** If the cycle of a look goes well and
nothing but more looks follows, every later cycle is counted as skipped and leaves all as it is.
Once no report is left, each look that was accepted has had its cycle. -/
theorem Syncs.staysPut (h : s.Syncs i es u c) (hes : OnlyLooks es)
    (hstore : RecallingStore σ s.reporter.publisher.name f)
    (hwell : c.GoesWell s.reporter.publisher.name) :
    StaysPut s.reporter.publisher.name s.shared.entered.length c u ∧
      (u.shared.IsDrained → u.shared.cycles.length = u.shared.accepted.length) := by
  have hlooks : OnlyLooks (.tell i .workloads :: es) := List.forall_mem_cons.mpr ⟨trivial, hes⟩
  refine ⟨(settles h.isReached h.isFree hstore h.run hlooks c h.cycle hwell).1, fun hdrained => ?_⟩
  obtain ⟨horder, hentered⟩ := (h.isReached.run h.run).shared_inOrder
  have hlength := congrArg List.length horder
  rw [hdrained.1, hdrained.2, hentered] at hlength
  simpa [SharedPublisher.processed] using hlength.symm

end Settling

/-! ### The two stores -/

/-- **Looking again changes nothing.** A reporter was used in any way, over a store in memory or in
a directory. It is told to look at the workloads, the report is accepted, and nothing but more looks
follows, with starts and stops at any time. The cycle of the first look finds no resource, or one in
which no kind of condition occurs twice and which, in a directory, is recorded under its own name;
nothing disturbs the calls of the store; and the cycle does not fail. Then every later cycle is
counted as skipped, whatever the clock shows; it asks for the resource and makes no other call, and
all that is stored is what the first cycle has left. Once no report is left, each look that was
accepted has had its cycle. -/
theorem idempotent {ι : Type} [DecidableEq ι] :
    (∀ (s u : LiveReporter ι (ScriptedStore MemoryStore)) (i : ι)
      (es : List (Event ι (ScriptedStore MemoryStore))) (c : Cycle (ScriptedStore MemoryStore)),
      s.Syncs i es u c → OnlyLooks es →
      (∀ r, c.before.2.inner.find? s.reporter.publisher.name = some r →
        (r.status.conditions.map (·.kind)).Nodup) →
      c.before.2.script = [] → ¬ c.IsCounted .failed →
      StaysPut s.reporter.publisher.name s.shared.entered.length c u ∧
        (u.shared.IsDrained → u.shared.cycles.length = u.shared.accepted.length)) ∧
    (∀ [DocumentFormat] [LawfulDocumentFormat] (s u : LiveReporter ι (ScriptedStore FileStore))
      (i : ι) (es : List (Event ι (ScriptedStore FileStore))) (c : Cycle (ScriptedStore FileStore)),
      s.Syncs i es u c → OnlyLooks es →
      (∀ r, c.before.2.inner.get s.reporter.publisher.name = .ok r →
        r.name = s.reporter.publisher.name ∧ (r.status.conditions.map (·.kind)).Nodup) →
      c.before.2.script = [] → ¬ c.IsCounted .failed →
      StaysPut s.reporter.publisher.name s.shared.entered.length c u ∧
        (u.shared.IsDrained → u.shared.cycles.length = u.shared.accepted.length)) := by
  constructor
  · intro s u i es c hsync hes hnodup hscript hfailed
    refine hsync.staysPut hes (MemoryStore.recallingStore _) ⟨hscript, fun r m hget => ?_, hfailed⟩
    obtain ⟨-, hfind, -⟩ := MemoryStore.get_eq_ok_iff.mp hget
    exact ⟨MemoryStore.name_of_find? hfind, hnodup r hfind⟩
  · intro _ _ s u i es c hsync hes hold hscript hfailed
    refine hsync.staysPut hes (FileStore.recallingStore _) ⟨hscript, fun r m hget => ?_, hfailed⟩
    rw [FileStore.get_eq] at hget
    exact hold r (Prod.mk.inj hget).1

/-- A resource that says that the operator is down. -/
def downResource : ClusterOperator where
  name := "network"
  status := { conditions := [{ kind := .available, status := .false }] }

/-- A store in memory with this resource. -/
def downMemory : ScriptedStore MemoryStore where
  inner := { objects := [downResource] }

/-- A file of this resource, written by hand. -/
def downText : String :=
  "\x7b\"name\":\"network\",\"status\":\x7b\"conditions\":[" ++
    "\x7b\"type\":\"Available\",\"status\":\"False\"\x7d]\x7d\x7d"

/-- A store in a directory with this file. -/
def downDirectory : ScriptedStore FileStore where
  inner :=
    { directory := "store"
      tree :=
        { entries := [(.ofNames ["network.yaml", "store"], .file downText),
            (.ofNames ["store"], .directory)] } }

/-- A look that is handed over before the start, one while the publisher is at work, and one whose
cycle is run while a stop waits. The clock does not go on in order. -/
def threeLooks : List (Event Bool (ScriptedStore MemoryStore)) :=
  Event.acts true 4 ++ Event.wholeStart false ++ Event.workOn (.ofSeconds 5) ++
  Event.wholeTell false .workloads ++ Event.workOn (.ofSeconds 9) ++
  Event.wholeTell true .workloads ++ Event.wholeStop false 4 (.ofSeconds 2)

theorem onlyLooks_threeLooks : OnlyLooks threeLooks := by
  simp [OnlyLooks, threeLooks, Event.acts, Event.works, Event.wholeStart, Event.wholeTell,
    Event.wholeStop, Event.workOn, Event.IsLook]

open scoped Json in
theorem idempotent_threeLooks :
    (∃ u c, (unused Bool downMemory).Syncs true threeLooks u c ∧ ¬ c.IsCounted .failed ∧
      StaysPut "network" 0 c u ∧ u.shared.cycles.length = 3) ∧
    ∃ s es u c, (unused Bool downDirectory).run? (Event.wholeStart true) = some s ∧
      s.Syncs true es u c ∧ ¬ c.IsCounted .failed ∧ StaysPut "network" 0 c u ∧
      u.shared.cycles.length = 3 := by
  constructor
  · have hlook : ((unused Bool downMemory).look? true threeLooks).map (fun x =>
        (x.1.shared.cycles.length, decide (x.2.IsCounted .failed), x.2.before.2.script,
          x.2.before.2.inner.find? "network")) = some (3, false, [], some downResource) := by
      decide +kernel
    obtain ⟨⟨u, c⟩, hlook, hseen⟩ := Option.map_eq_some_iff.mp hlook
    simp only [Prod.mk.injEq, decide_eq_false_iff_not] at hseen
    obtain ⟨hlength, hfailed, hscript, hfind⟩ := hseen
    have hnew : (unused Bool downMemory).run? [] = some (unused Bool downMemory) := rfl
    have hsync := syncs_of_look? (isReached_unused hnew)
      (fun e he => not_isRelate_of_isLook (onlyLooks_threeLooks e he)) hlook
    refine ⟨u, c, hsync, hfailed, (idempotent.1 _ u _ _ _ hsync onlyLooks_threeLooks
      (fun r hr => ?_) hscript hfailed).1, hlength⟩
    obtain rfl : downResource = r := Option.some.inj (hfind.symm.trans hr)
    decide
  · obtain ⟨s, hrun, hrest, hcycles, hentered, hcycle, hname⟩ : ∃ s,
        (unused Bool downDirectory).run? (Event.wholeStart true) = some s ∧ s.IsAtRest true ∧
        s.shared.cycles = [] ∧ s.shared.entered = [] ∧
        s.lookCycle (.ofSeconds 5) = (unused Bool downDirectory).lookCycle (.ofSeconds 5) ∧
        s.reporter.publisher.name = "network" :=
      ⟨_, rfl, ⟨⟨(fun j hj => by cases hj), rfl, rfl⟩, ⟨⟨rfl, rfl, rfl, rfl⟩, rfl, rfl, rfl⟩⟩, rfl,
        rfl, rfl, rfl⟩
    obtain ⟨u, hsync, hlength⟩ := hrest.exists_syncs (isReached_unused hrun) (.ofSeconds 5)
      [.ofSeconds 9, .ofSeconds 2]
    have hfailed : ¬ (s.lookCycle (.ofSeconds 5)).IsCounted .failed := by
      rw [hcycle]
      decide +kernel
    have hread : (downDirectory.inner.get "network").toOption = some downResource := by
      decide +kernel
    have hput := (idempotent.2 s u _ _ _ hsync (onlyLooks_looks _ _ _) (fun r hr => ?_)
      (by rw [hcycle]; rfl) hfailed).1
    · rw [hname, hentered] at hput
      exact ⟨s, _, u, _, hrun, hsync, hfailed, hput, by rw [hlength, hcycles]; rfl⟩
    · rw [hcycle, hname] at hr
      obtain rfl : downResource = r :=
        Option.some.inj (hread.symm.trans (congrArg Except.toOption hr))
      exact ⟨hname.symm, by decide⟩

end LiveReporter

end OperatorHealth
