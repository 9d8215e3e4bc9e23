import Mathlib.Data.List.Nodup
import OperatorHealth.Condition.Merge

/-!
# What a merge does to a list of conditions

A merge changes the condition of one kind and nothing else: the kind is found afterwards with what
was merged, and every other kind is found as before. A kind that was there keeps its place and a
new one joins at the end, so kinds that occur once keep doing so.

## Main definitions

* `Condition.mergedInto`, `mergeFound`: what one merge, or several, make of the condition of their
  kind.
* `Condition.SaysAs`, `Conveys`: a condition, or a list of them, says what a condition says.

## Main results

* `findCondition_mergeCondition_self`, `findCondition_mergeCondition_of_ne`: what is found after a
  merge.
* `map_kind_mergeCondition`, `nodup_kinds_mergeConditions`: the kinds after merges.
* `mem_mergeCondition`: the conditions after a merge, one by one.
* `findCondition_mergeConditions`: what is found after several merges.
* `mergeCondition_eq_self`, `mergeConditions_eq_self`: merges of what is said already.
-/

namespace OperatorHealth

variable {k : ConditionKind} {c d : Condition} {cs : List Condition} {now : Instant}

/-! ### Looking for a kind -/

theorem findCondition_cons_of_eq (h : c.kind = k) : findCondition k (c :: cs) = some c := by
  simp [findCondition, h]

theorem findCondition_cons_of_ne (h : c.kind ≠ k) :
    findCondition k (c :: cs) = findCondition k cs := by
  simp [findCondition, h]

theorem mem_of_findCondition (h : findCondition k cs = some c) : c ∈ cs ∧ c.kind = k :=
  ⟨List.mem_of_find?_eq_some h, by simpa using List.find?_some h⟩

/-- Where no kind occurs twice, a condition is the one that is found for its kind. -/
theorem findCondition_of_mem (hnodup : (cs.map (·.kind)).Nodup) (hc : c ∈ cs) :
    findCondition c.kind cs = some c := by
  induction cs with
  | nil => cases hc
  | cons d cs ih =>
    rw [List.map_cons, List.nodup_cons] at hnodup
    rcases List.mem_cons.mp hc with rfl | hc
    · exact findCondition_cons_of_eq rfl
    · have hne : d.kind ≠ c.kind := fun h => hnodup.1 (h ▸ List.mem_map_of_mem hc)
      rw [findCondition_cons_of_ne hne, ih hnodup.2 hc]

/-- Where no kind occurs twice, a condition is the only one of its kind. -/
theorem filter_kind_eq_singleton (hnodup : (cs.map (·.kind)).Nodup) (hc : c ∈ cs) :
    cs.filter (·.kind = c.kind) = [c] := by
  induction cs with
  | nil => cases hc
  | cons d cs ih =>
    rw [List.map_cons, List.nodup_cons] at hnodup
    rcases List.mem_cons.mp hc with rfl | hc
    · have hnone : cs.filter (·.kind = c.kind) = [] := by
        refine List.filter_eq_nil_iff.mpr fun d hd hkind => hnodup.1 ?_
        rw [← of_decide_eq_true hkind]
        exact List.mem_map_of_mem hd
      rw [List.filter_cons_of_pos (by simp), hnone]
    · have hne : d.kind ≠ c.kind := fun heq => hnodup.1 (heq ▸ List.mem_map_of_mem hc)
      rw [List.filter_cons_of_neg (by simpa using hne), ih hnodup.2 hc]

theorem exists_findCondition_iff : (∃ c, findCondition k cs = some c) ↔ k ∈ cs.map (·.kind) := by
  constructor
  · rintro ⟨c, hc⟩
    obtain ⟨hmem, rfl⟩ := mem_of_findCondition hc
    exact List.mem_map_of_mem hmem
  · intro h
    obtain ⟨c, hc, hk⟩ := List.mem_map.mp h
    refine Option.isSome_iff_exists.mp (List.find?_isSome.mpr ⟨c, hc, ?_⟩)
    simpa using hk

/-! ### One merge -/

@[simp] theorem Condition.kind_replaceBy : (c.replaceBy now d).kind = c.kind := rfl

/-- What a merge leaves of the condition that was found for its kind before. -/
def Condition.mergedInto (now : Instant) (c : Condition) : Option Condition → Condition
  | none => { c with lastTransition := c.transitionTime now }
  | some old => old.replaceBy now c

@[simp] theorem Condition.status_mergedInto (old : Option Condition) :
    (c.mergedInto now old).status = c.status := by
  cases old <;> rfl

@[simp] theorem Condition.reason_mergedInto (old : Option Condition) :
    (c.mergedInto now old).reason = c.reason := by
  cases old <;> rfl

@[simp] theorem Condition.message_mergedInto (old : Option Condition) :
    (c.mergedInto now old).message = c.message := by
  cases old <;> rfl

theorem findCondition_mergeCondition_self (now : Instant) (c : Condition) (cs : List Condition) :
    findCondition c.kind (mergeCondition now c cs) =
      some (c.mergedInto now (findCondition c.kind cs)) := by
  induction cs with
  | nil => exact findCondition_cons_of_eq rfl
  | cons x cs ih =>
    rw [mergeCondition]
    split
    · next h => rw [findCondition_cons_of_eq h, findCondition_cons_of_eq (by exact h)]; rfl
    · next h => rw [findCondition_cons_of_ne h, findCondition_cons_of_ne h, ih]

/-- The conditions of other kinds stay as they are, and in their order. -/
theorem filter_mergeCondition (now : Instant) (cs : List Condition) (p : ConditionKind → Bool)
    (h : p c.kind = false) :
    (mergeCondition now c cs).filter (p ·.kind) = cs.filter (p ·.kind) := by
  induction cs with
  | nil => simp [mergeCondition, h]
  | cons x cs ih =>
    rw [mergeCondition]
    split
    · next hx => simp [hx, h]
    · rw [List.filter_cons, List.filter_cons, ih]

theorem findCondition_mergeCondition_of_ne (now : Instant) (cs : List Condition)
    (h : c.kind ≠ k) : findCondition k (mergeCondition now c cs) = findCondition k cs := by
  have hother : (c.kind == k) = false := beq_eq_false_iff_ne.mpr h
  rw [findCondition, findCondition, ← List.head?_filter, ← List.head?_filter,
    filter_mergeCondition now cs (· == k) hother]

/-- A kind that is there keeps its place, and a new one joins at the end. -/
theorem map_kind_mergeCondition (now : Instant) (c : Condition) (cs : List Condition) :
    (mergeCondition now c cs).map (·.kind) =
      if c.kind ∈ cs.map (·.kind) then cs.map (·.kind) else cs.map (·.kind) ++ [c.kind] := by
  induction cs with
  | nil => rfl
  | cons x cs ih =>
    rw [mergeCondition]
    by_cases h : x.kind = c.kind
    · simp [h]
    · have h' : c.kind ≠ x.kind := Ne.symm h
      simp only [h, h', if_false, List.map_cons, List.mem_cons, false_or, ih]
      split <;> rfl

theorem nodup_kinds_mergeCondition (h : (cs.map (·.kind)).Nodup) :
    ((mergeCondition now c cs).map (·.kind)).Nodup := by
  rw [map_kind_mergeCondition]
  split
  · exact h
  · next hc => exact List.Nodup.append h (List.nodup_singleton _) (by simpa using hc)

theorem mem_kinds_mergeCondition (h : k ∈ cs.map (·.kind)) :
    k ∈ (mergeCondition now c cs).map (·.kind) := by
  rw [map_kind_mergeCondition]
  split
  · exact h
  · exact List.mem_append_left _ h

theorem mergeCondition_ne_nil (now : Instant) (c : Condition) (cs : List Condition) :
    mergeCondition now c cs ≠ [] := by
  cases cs with
  | nil => exact List.cons_ne_nil _ _
  | cons x cs => rw [mergeCondition]; split <;> exact List.cons_ne_nil _ _

/-- A condition after a merge was there before, or is what the merge has made of one that was
there or of none. -/
theorem mem_mergeCondition (h : d ∈ mergeCondition now c cs) :
    d ∈ cs ∨ d = c.mergedInto now none ∨ ∃ old ∈ cs, d = c.mergedInto now (some old) := by
  induction cs with
  | nil => exact .inr (.inl (List.mem_singleton.mp h))
  | cons x cs ih =>
    rw [mergeCondition] at h
    split at h
    · rcases List.mem_cons.mp h with rfl | h
      · exact .inr (.inr ⟨x, List.mem_cons_self .., rfl⟩)
      · exact .inl (List.mem_cons_of_mem _ h)
    · rcases List.mem_cons.mp h with rfl | h
      · exact .inl (List.mem_cons_self ..)
      · rcases ih h with h | h | ⟨old, hold, h⟩
        · exact .inl (List.mem_cons_of_mem _ h)
        · exact .inr (.inl h)
        · exact .inr (.inr ⟨old, List.mem_cons_of_mem _ hold, h⟩)

/-! ### Several merges -/

@[simp] theorem mergeConditions_cons (new : List Condition) :
    mergeConditions now (c :: new) cs = mergeConditions now new (mergeCondition now c cs) := rfl

/-- What each merge keeps, several merges keep. -/
theorem mergeConditions_induction {P : List Condition → Prop} (new : List Condition) (hcs : P cs)
    (hmerge : ∀ c ∈ new, ∀ cs, P cs → P (mergeCondition now c cs)) :
    P (mergeConditions now new cs) := by
  induction new generalizing cs with
  | nil => exact hcs
  | cons c new ih =>
    exact ih (hmerge c (List.mem_cons_self ..) cs hcs)
      fun d hd => hmerge d (List.mem_cons_of_mem _ hd)

/-- What merges, one after another, leave of the condition that was found for their kind. -/
def mergeFound (now : Instant) (new : List Condition) (found : Option Condition) :
    Option Condition :=
  new.foldl (fun found c => some (c.mergedInto now found)) found

@[simp] theorem mergeFound_nil (found : Option Condition) : mergeFound now [] found = found := rfl

@[simp] theorem mergeFound_cons (new : List Condition) (found : Option Condition) :
    mergeFound now (c :: new) found = mergeFound now new (some (c.mergedInto now found)) := rfl

theorem mergeFound_append_singleton (new : List Condition) (found : Option Condition) :
    mergeFound now (new ++ [c]) found = some (c.mergedInto now (mergeFound now new found)) := by
  simp [mergeFound]

theorem exists_mergeFound_cons (now : Instant) (c : Condition) (cs : List Condition)
    (found : Option Condition) : ∃ e, mergeFound now (c :: cs) found = some e := by
  induction cs generalizing c found with
  | nil => exact ⟨_, rfl⟩
  | cons d cs ih => exact ih d (some (c.mergedInto now found))

/-- Several merges do to each kind what the merges of that kind do. -/
theorem findCondition_mergeConditions (now : Instant) (k : ConditionKind)
    (new cs : List Condition) : findCondition k (mergeConditions now new cs) =
      mergeFound now (new.filter (·.kind = k)) (findCondition k cs) := by
  induction new generalizing cs with
  | nil => rfl
  | cons c new ih =>
    rw [mergeConditions_cons, ih]
    by_cases hc : c.kind = k
    · subst hc
      rw [List.filter_cons_of_pos (by simp), findCondition_mergeCondition_self, mergeFound_cons]
    · rw [List.filter_cons_of_neg (by simpa using hc), findCondition_mergeCondition_of_ne now cs hc]

/-- Conditions of other kinds change nothing about a kind. -/
theorem findCondition_mergeConditions_of_filter_nil {new : List Condition}
    (h : new.filter (·.kind = k) = []) :
    findCondition k (mergeConditions now new cs) = findCondition k cs := by
  rw [findCondition_mergeConditions, h, mergeFound_nil]

/-- Two conditions say the same, of whatever kind and since whenever. -/
def Condition.SaysAs (c d : Condition) : Prop :=
  c.status = d.status ∧ c.reason = d.reason ∧ c.message = d.message

namespace Condition.SaysAs

protected theorem symm (h : c.SaysAs d) : d.SaysAs c := ⟨h.1.symm, h.2.1.symm, h.2.2.symm⟩

protected theorem trans {e : Condition} (h : c.SaysAs d) (h' : d.SaysAs e) : c.SaysAs e :=
  ⟨h.1.trans h'.1, h.2.1.trans h'.2.1, h.2.2.trans h'.2.2⟩

end Condition.SaysAs

theorem Condition.mergedInto_saysAs (c : Condition) (now : Instant) (old : Option Condition) :
    (c.mergedInto now old).SaysAs c :=
  ⟨status_mergedInto old, reason_mergedInto old, message_mergedInto old⟩

/-- Where one condition of a kind is merged, that kind says afterwards what it says. -/
theorem findCondition_mergeConditions_of_filter_singleton {new : List Condition}
    (h : new.filter (·.kind = k) = [d]) :
    ∃ c, findCondition k (mergeConditions now new cs) = some c ∧ c.SaysAs d := by
  rw [findCondition_mergeConditions, h, mergeFound_cons, mergeFound_nil]
  exact ⟨_, rfl, d.mergedInto_saysAs now _⟩

theorem mem_kinds_mergeConditions (new : List Condition) (h : k ∈ cs.map (·.kind)) :
    k ∈ (mergeConditions now new cs).map (·.kind) :=
  mergeConditions_induction (P := fun cs => k ∈ cs.map (·.kind)) new h
    fun _ _ _ => mem_kinds_mergeCondition

theorem nodup_kinds_mergeConditions (new : List Condition) (h : (cs.map (·.kind)).Nodup) :
    ((mergeConditions now new cs).map (·.kind)).Nodup :=
  mergeConditions_induction (P := fun cs => (cs.map (·.kind)).Nodup) new h
    fun _ _ _ => nodup_kinds_mergeCondition

/-! ### Conditions that are said already -/

/-- A list conveys what a condition says, by the condition that is found for its kind. -/
def Conveys (cs : List Condition) (c : Condition) : Prop :=
  ∃ d, findCondition c.kind cs = some d ∧ d.SaysAs c

/-- Merging what is said already changes nothing, not even a time. -/
theorem mergeCondition_eq_self (now : Instant) (h : Conveys cs c) :
    mergeCondition now c cs = cs := by
  obtain ⟨d, hd, hsays⟩ := h
  induction cs with
  | nil => cases hd
  | cons x cs ih =>
    rw [mergeCondition]
    by_cases hx : x.kind = c.kind
    · rw [findCondition_cons_of_eq hx] at hd
      obtain rfl := Option.some.inj hd
      obtain ⟨hstatus, hreason, hmessage⟩ := hsays
      rw [if_pos hx, Condition.replaceBy, if_pos hstatus, ← hstatus, ← hreason, ← hmessage]
    · rw [findCondition_cons_of_ne hx] at hd
      rw [if_neg hx, ih hd]

theorem mergeConditions_eq_self {new : List Condition} (h : ∀ c ∈ new, Conveys cs c) :
    mergeConditions now new cs = cs := by
  induction new with
  | nil => rfl
  | cons c new ih =>
    rw [mergeConditions_cons, mergeCondition_eq_self now (h c (List.mem_cons_self ..))]
    exact ih fun d hd => h d (List.mem_cons_of_mem _ hd)

end OperatorHealth
