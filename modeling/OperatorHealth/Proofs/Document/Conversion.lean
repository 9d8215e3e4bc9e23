import Mathlib.Data.List.Forall2
import OperatorHealth.Document.Basic

/-!
# Conversions that succeed

A conversion is made of steps, each of which may fail. If it succeeds, every step did, and the
value is put together from what the steps gave. If it fails, some step did, and as long as no key is
asked of a scalar, that is because a node does not convert.

## Main definitions

* `NodeError.OnlyConversion`: no key is asked of a scalar.

## Main results

* `Except.bind_eq_ok`, `Except.bind_eq_error`: two steps.
* `Document.mapM_eq_ok`, `Document.mapM_eq_error`: a list of items, one step for each.
-/

namespace OperatorHealth

theorem Except.bind_eq_ok {ε α β : Type} {x : Except ε α} {f : α → Except ε β} {b : β} :
    (x >>= f) = .ok b ↔ ∃ a, x = .ok a ∧ f a = .ok b := by
  cases x <;> simp [bind, Except.bind]

theorem Except.bind_eq_error {ε α β : Type} {x : Except ε α} {f : α → Except ε β} {e : ε} :
    (x >>= f) = .error e ↔ x = .error e ∨ ∃ a, x = .ok a ∧ f a = .error e := by
  cases x <;> simp [bind, Except.bind]

theorem Except.pure_eq_ok {ε α : Type} {a b : α} :
    (pure a : Except ε α) = .ok b ↔ a = b := by
  simp [pure, Except.pure]

theorem Except.mapError_eq_ok {ε ε' α : Type} {f : ε → ε'} {x : Except ε α} {a : α} :
    x.mapError f = .ok a ↔ x = .ok a := by
  cases x <;> simp [Except.mapError]

theorem Except.toOption_eq_some {ε α : Type} {x : Except ε α} {a : α} :
    x.toOption = some a ↔ x = .ok a := by
  cases x <;> simp [Except.toOption]

/-- The items of a list convert if each of them does, to the values in the same order. -/
theorem Document.mapM_eq_ok {ε α β : Type} {f : α → Except ε β} {as : List α} {bs : List β} :
    as.mapM f = .ok bs ↔ List.Forall₂ (fun a b => f a = .ok b) as bs := by
  induction as generalizing bs with
  | nil => cases bs <;> simp [Except.pure_eq_ok]
  | cons a as ih =>
    simp only [List.mapM_cons, Except.bind_eq_ok, Except.pure_eq_ok, ih]
    constructor
    · rintro ⟨b, hb, bs', hbs', rfl⟩
      exact .cons hb hbs'
    · rintro (_ | ⟨hb, hbs⟩)
      exact ⟨_, hb, _, hbs, rfl⟩

/-- The items of a list do not convert if one of them does not, and the first such is what is
wrong. -/
theorem Document.mapM_eq_error {ε α β : Type} {f : α → Except ε β} {as : List α} {e : ε} :
    as.mapM f = .error e ↔ ∃ before a after, as = before ++ a :: after ∧
      (∀ x ∈ before, ∃ b, f x = .ok b) ∧ f a = .error e := by
  induction as with
  | nil => simp [pure, Except.pure]
  | cons a as ih =>
    simp only [List.mapM_cons, Except.bind_eq_error, ih]
    constructor
    · rintro (ha | ⟨b, hb, ⟨before, a', after, rfl, hbefore, ha'⟩ | ⟨bs, -, hpure⟩⟩)
      · exact ⟨[], a, as, rfl, nofun, ha⟩
      · exact ⟨a :: before, a', after, rfl, List.forall_mem_cons.mpr ⟨⟨b, hb⟩, hbefore⟩, ha'⟩
      · cases hpure
    · rintro ⟨before, a', after, h, hbefore, ha'⟩
      cases before with
      | nil =>
        obtain ⟨rfl, rfl⟩ := List.cons.inj h
        exact .inl ha'
      | cons x before =>
        obtain ⟨rfl, rfl⟩ := List.cons.inj h
        obtain ⟨⟨b, hb⟩, hbefore⟩ := List.forall_mem_cons.mp hbefore
        exact .inr ⟨b, hb, .inl ⟨before, a', after, rfl, hbefore, ha'⟩⟩

/-! ### What can go wrong -/

namespace NodeError

variable {α β : Type}

/-- All that can go wrong is that a node does not convert. -/
def OnlyConversion (x : Except NodeError α) : Prop := ∀ e, x = .error e → e = badConversion

theorem onlyConversion_ok (a : α) : OnlyConversion (.ok a : Except NodeError α) := by
  intro e h
  cases h

theorem onlyConversion_badConversion :
    OnlyConversion (.error badConversion : Except NodeError α) := by
  intro e h
  cases h
  rfl

theorem OnlyConversion.bind {x : Except NodeError α} {f : α → Except NodeError β}
    (hx : OnlyConversion x) (hf : ∀ a, OnlyConversion (f a)) : OnlyConversion (x >>= f) := by
  cases x with
  | ok a => exact hf a
  | error e =>
    rw [hx e rfl]
    exact onlyConversion_badConversion

theorem OnlyConversion.mapM {f : α → Except NodeError β} (hf : ∀ a, OnlyConversion (f a))
    (as : List α) : OnlyConversion (as.mapM f) := by
  induction as with
  | nil => exact onlyConversion_ok []
  | cons a as ih =>
    rw [List.mapM_cons]
    exact (hf a).bind fun _ => ih.bind fun _ => onlyConversion_ok _

theorem onlyConversion_text (d : Document) : OnlyConversion d.text := by
  cases d with
  | null => exact onlyConversion_ok _
  | scalar s => exact onlyConversion_ok _
  | sequence items => exact onlyConversion_badConversion
  | mapping es => exact onlyConversion_badConversion

theorem onlyConversion_int64 (d : Document) : OnlyConversion d.int64 := by
  have hinteger : OnlyConversion d.integer := by
    cases d with
    | scalar s =>
      rw [Document.integer]
      split
      · exact onlyConversion_ok _
      · exact onlyConversion_badConversion
    | null => exact onlyConversion_badConversion
    | sequence items => exact onlyConversion_badConversion
    | mapping es => exact onlyConversion_badConversion
  refine hinteger.bind fun n => ?_
  split
  · exact onlyConversion_ok _
  · exact onlyConversion_badConversion

theorem onlyConversion_list {convert : Document → Except NodeError α}
    (h : ∀ d, OnlyConversion (convert d)) (d : Document) : OnlyConversion (d.list convert) := by
  cases d with
  | sequence items => exact .mapM h items
  | null => exact onlyConversion_badConversion
  | scalar s => exact onlyConversion_badConversion
  | mapping es => exact onlyConversion_badConversion

end NodeError

end OperatorHealth
