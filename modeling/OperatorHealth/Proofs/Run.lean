import Mathlib.Logic.Basic

/-!
# Runs of steps that may not be possible

A run takes one step for each entry of a list, and is not possible if one of its steps is not.

## Main results

* `foldlM_cons_eq_some_iff`, `foldlM_append_eq_some_iff`: the first step of a run, and its parts.
* `foldlM_induction`: what every step of a run keeps, the run keeps.
* `foldlM_induction_of_split`: the same, where a step may look back on the run up to it.
* `getElem?_append_singleton_cases`: what is found in a record that grows.
* `filter_eq_take`: the entries of a record that are kept because they came first.
-/

namespace OperatorHealth

variable {α β : Type} {step? : β → α → Option β} {P : β → Prop} {e : α} {es es' : List α}
  {s s' : β}

/-- A run takes its first step, and goes on from there. -/
theorem foldlM_cons_eq_some_iff : (e :: es).foldlM step? s = some s' ↔
    ∃ t, step? s e = some t ∧ es.foldlM step? t = some s' := by
  rw [List.foldlM_cons]
  exact Option.bind_eq_some_iff

/-- A run of two parts, one after the other. -/
theorem foldlM_append_eq_some_iff : (es ++ es').foldlM step? s = some s' ↔
    ∃ t, es.foldlM step? s = some t ∧ es'.foldlM step? t = some s' := by
  rw [List.foldlM_append]
  exact Option.bind_eq_some_iff

/-- What holds at the beginning of a run, and is kept by each of its steps, holds at the end. -/
theorem foldlM_induction (hrun : es.foldlM step? s = some s') (hinit : P s)
    (hstep : ∀ e ∈ es, ∀ t t', step? t e = some t' → P t → P t') : P s' := by
  induction es generalizing s with
  | nil => cases hrun; exact hinit
  | cons e es ih =>
    obtain ⟨t, het, hrun⟩ := foldlM_cons_eq_some_iff.mp hrun
    exact ih hrun (hstep e (List.mem_cons_self ..) s t het hinit)
      fun e' he' => hstep e' (List.mem_cons_of_mem _ he')

/-- What holds at the beginning of a run, and is kept by each of its steps from the state that the
run up to it has led to, holds at the end. -/
theorem foldlM_induction_of_split (hrun : es.foldlM step? s = some s') (hinit : P s)
    (hstep : ∀ before e after t t', es = before ++ e :: after →
      before.foldlM step? s = some t → step? t e = some t' → P t → P t') : P s' := by
  induction es generalizing s with
  | nil => cases hrun; exact hinit
  | cons e es ih =>
    obtain ⟨t, het, hrun⟩ := foldlM_cons_eq_some_iff.mp hrun
    exact ih hrun (hstep [] e es s t rfl rfl het hinit) fun before e' after u u' hes hbefore =>
      hstep (e :: before) e' after u u' (by rw [hes, List.cons_append])
        (foldlM_cons_eq_some_iff.mpr ⟨t, het, hbefore⟩)

/-! ### Records of a run -/

/-- What is found in a record after one more entry was there before, or is that entry. -/
theorem getElem?_append_singleton_cases {l : List α} {x y : α} {k : Nat}
    (h : (l ++ [x])[k]? = some y) : k < l.length ∧ l[k]? = some y ∨ k = l.length ∧ x = y := by
  rcases Nat.lt_or_ge k l.length with hlt | hge
  · rw [List.getElem?_append_left hlt] at h
    exact .inl ⟨hlt, h⟩
  · rw [List.getElem?_append_right hge] at h
    obtain ⟨hk, hx⟩ := List.getElem?_eq_some_iff.mp h
    rw [List.length_singleton] at hk
    exact .inr ⟨by omega, by rwa [List.getElem_singleton] at hx⟩

/-- If just the first entries of a list have a property, they are what is left when the list is
filtered by it. -/
theorem filter_eq_take {l : List α} {P : α → Bool} {n : Nat}
    (h : ∀ (k : Nat) a, l[k]? = some a → (P a = true ↔ k < n)) : l.filter P = l.take n := by
  induction l generalizing n with
  | nil => simp
  | cons a l ih =>
    have ha := h 0 a rfl
    cases n with
    | zero =>
      have hl := ih (n := 0) fun k b hb => (h (k + 1) b hb).trans (by simp)
      rw [List.filter_cons_of_neg (by simp [ha]), hl, List.take_zero, List.take_zero]
    | succ n =>
      have hl := ih fun k b hb => (h (k + 1) b hb).trans Nat.succ_lt_succ_iff
      rw [List.filter_cons_of_pos (ha.mpr n.succ_pos), hl, List.take_succ_cons]

end OperatorHealth
