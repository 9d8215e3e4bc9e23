import OperatorHealth.Proofs.Condition.Agreement

/-!
# Conditions of one kind that turn

Several conditions of one kind are merged one after another. Where one says another status than
the one right before it, the kind turns, and its time of transition moves. So the time that is left
is that of the last turn. A second round of the same merges turns at the same places, and leaves
everything as it is just if the last turn takes effect at the time that was left.

## Main definitions

* `lastTurn`: the last condition of a list that turns.
* `Condition.mapTime`: a condition with another time.

## Main results

* `lastTransition_of_mergeFound`: the time that merges leave.
* `mergeFound_again_iff`: a second round of the same merges.
-/

namespace OperatorHealth

variable {k : ConditionKind} {c d e e' : Condition} {cs : List Condition} {now now₁ now₂ : Instant}
  {found : Option Condition}

/-! ### The last turn -/

/-- The last condition of a list whose status is not that of the one right before it. -/
def lastTurn : List Condition → Option Condition
  | [] => none
  | [_] => none
  | c :: d :: cs => (lastTurn (d :: cs)).or (if d.status = c.status then none else some d)

/-- The first condition counts by its status alone. -/
theorem lastTurn_cons_congr (h : c.status = d.status) (cs : List Condition) :
    lastTurn (c :: cs) = lastTurn (d :: cs) := by
  cases cs with
  | nil => rfl
  | cons e cs => rw [lastTurn, lastTurn, h]

/-- A list does not turn if all its conditions have one status. -/
theorem lastTurn_cons_eq_none_iff :
    lastTurn (c :: cs) = none ↔ ∀ d ∈ cs, d.status = c.status := by
  induction cs generalizing c with
  | nil => simp [lastTurn]
  | cons d cs ih =>
    rw [lastTurn, Option.or_eq_none_iff, ih, List.forall_mem_cons]
    constructor
    · rintro ⟨hrest, hturn⟩
      have hd : d.status = c.status := by
        by_contra hne
        rw [if_neg hne] at hturn
        cases hturn
      exact ⟨hd, fun e he => (hrest e he).trans hd⟩
    · rintro ⟨hd, hrest⟩
      exact ⟨fun e he => (hrest e he).trans hd.symm, if_pos hd⟩

/-! ### What merges leave -/

/-- Merges of one kind leave a condition of that kind. -/
theorem kind_of_mergeFound (hkinds : ∀ c ∈ cs, c.kind = k)
    (hfound : ∀ c, found = some c → c.kind = k) (h : mergeFound now cs found = some e) :
    e.kind = k := by
  induction cs generalizing found with
  | nil => exact hfound e h
  | cons d cs ih =>
    rw [List.forall_mem_cons] at hkinds
    refine ih hkinds.2 (fun c hc => ?_) h
    obtain rfl := Option.some.inj hc
    cases found with
    | none => exact hkinds.1
    | some old => exact hfound old rfl

/-- What is left says what the last condition says. -/
theorem saysAs_of_mergeFound (h : mergeFound now (cs ++ [c]) found = some e) : e.SaysAs c := by
  obtain rfl := Option.some.inj ((mergeFound_append_singleton cs found).symm.trans h)
  exact c.mergedInto_saysAs now _

/-- The time that is left is that of the last turn. -/
theorem lastTransition_of_mergeFound (h : mergeFound now cs (some c) = some e) :
    e.lastTransition =
      ((lastTurn (c :: cs)).map (·.transitionTime now)).getD c.lastTransition := by
  induction cs generalizing c with
  | nil => cases h; rfl
  | cons d cs ih =>
    have hnext := ih (c := c.replaceBy now d) h
    rw [lastTurn_cons_congr (show (c.replaceBy now d).status = d.status from rfl)] at hnext
    rw [hnext, lastTurn]
    cases lastTurn (d :: cs) with
    | some t => rfl
    | none =>
      by_cases hturn : d.status = c.status
      · simp [Condition.replaceBy, hturn]
      · simp [Condition.replaceBy, hturn, Ne.symm hturn]

/-! ### The same merges again -/

/-- A condition with its time mapped. -/
def Condition.mapTime (f : Instant → Instant) (c : Condition) : Condition :=
  { c with lastTransition := f c.lastTransition }

theorem Condition.eq_iff_lastTransition_eq (hkind : c.kind = d.kind) (hsame : c.SaysAs d) :
    c = d ↔ c.lastTransition = d.lastTransition := by
  obtain ⟨hstatus, hreason, hmessage⟩ := hsame
  refine ⟨fun h => h ▸ rfl, fun htime => ?_⟩
  cases c
  cases d
  simp_all

/-- A second round leaves what the first one says. -/
theorem saysAs_of_mergeFound_again (hleft : mergeFound now₁ cs found = some d)
    (hagain : mergeFound now₂ cs (some e) = some e') (hsame : e.SaysAs d) : e'.SaysAs d := by
  rcases cs.eq_nil_or_concat with rfl | ⟨init, last, rfl⟩
  · cases hagain
    exact hsame
  · rw [List.concat_eq_append] at hleft hagain
    exact (saysAs_of_mergeFound hagain).trans (saysAs_of_mergeFound hleft).symm

/-- A second round leaves the time of its own last turn, or the time that it has found. -/
theorem lastTransition_of_mergeFound_again (hleft : mergeFound now₁ (c :: cs) found = some d)
    (hagain : mergeFound now₂ (c :: cs) (some e) = some e') (hsame : e.SaysAs d) :
    e'.lastTransition =
      ((lastTurn (c :: cs)).map (·.transitionTime now₂)).getD e.lastTransition := by
  rw [lastTransition_of_mergeFound hagain, lastTurn]
  cases hturn : lastTurn (c :: cs) with
  | some t => rfl
  | none =>
    -- without a turn the first round has left the status of the first condition
    have hstatus : c.status = e.status := by
      obtain ⟨init, last, hcs⟩ : ∃ init last, c :: cs = init ++ [last] :=
        ⟨_, _, (List.dropLast_append_getLast (List.cons_ne_nil c cs)).symm⟩
      have hlast : last.status = c.status := by
        have hmem : last ∈ c :: cs := hcs ▸ List.mem_append_right _ (List.mem_singleton_self last)
        rcases List.mem_cons.mp hmem with rfl | hmem
        · rfl
        · exact lastTurn_cons_eq_none_iff.mp hturn last hmem
      rw [hcs] at hleft
      exact hlast.symm.trans (hsame.trans (saysAs_of_mergeFound hleft)).1.symm
    rw [if_pos hstatus]
    rfl

/-- **The same merges again.** They leave what a first round has left, with its time mapped, just if
the last turn takes effect at the mapped time. -/
theorem mergeFound_again_iff {f : Instant → Instant} (hkinds : ∀ d ∈ cs, d.kind = k)
    (hfound : ∀ d, found = some d → d.kind = k) (hleft : mergeFound now₁ cs found = some e) :
    mergeFound now₂ cs (some (e.mapTime f)) = some (e.mapTime f) ↔
      ∀ t, lastTurn cs = some t → f (t.transitionTime now₁) = t.transitionTime now₂ := by
  cases cs with
  | nil => simp [lastTurn]
  | cons c cs =>
    have hkind : e.kind = k := kind_of_mergeFound hkinds hfound hleft
    obtain ⟨e', hagain⟩ := exists_mergeFound_cons now₂ c cs (some (e.mapTime f))
    have hkind' : e'.kind = k :=
      kind_of_mergeFound hkinds (fun d hd => by cases hd; exact hkind) hagain
    have hmapped : (e.mapTime f).SaysAs e := ⟨rfl, rfl, rfl⟩
    have hsame : e'.SaysAs (e.mapTime f) :=
      (saysAs_of_mergeFound_again hleft hagain hmapped).trans hmapped.symm
    have htime := lastTransition_of_mergeFound hleft
    have htime' := lastTransition_of_mergeFound_again hleft hagain hmapped
    rw [lastTurn_cons_congr (Condition.status_mergedInto found)] at htime
    have heq : e' = e.mapTime f ↔ e'.lastTransition = (e.mapTime f).lastTransition :=
      Condition.eq_iff_lastTransition_eq (hkind'.trans hkind.symm) hsame
    rw [hagain, Option.some_inj, heq, htime']
    cases hturn : lastTurn (c :: cs) with
    | none => simp
    | some t =>
      rw [hturn] at htime
      simp [Condition.mapTime, htime, eq_comm]

end OperatorHealth
