/-!
# Terminated texts

A zero character ends a text. The system reads a path up to it, and the text of an error is shown
up to it.

## Main definitions

* `terminated`: a text up to its first zero character.

## Main statements

* `terminated_eq_self`: a text without a zero character is whole.
-/

namespace OperatorHealth

/-- A text up to its first zero character. -/
def terminated (s : String) : String := String.ofList (s.toList.takeWhile (· != '\x00'))

@[simp]
theorem toList_terminated (s : String) :
    (terminated s).toList = s.toList.takeWhile (· != '\x00') := by
  simp [terminated]

/-- A text without a zero character is whole. -/
theorem terminated_eq_self {s : String} (h : '\x00' ∉ s.toList) : terminated s = s := by
  have whole (cs : List Char) (hc : '\x00' ∉ cs) : cs.takeWhile (· != '\x00') = cs := by
    induction cs with
    | nil => rfl
    | cons c cs ih =>
      simp only [List.mem_cons, not_or] at hc
      simp [Ne.symm hc.1, ih hc.2]
  rw [terminated, whole _ h, String.ofList_toList]

end OperatorHealth
