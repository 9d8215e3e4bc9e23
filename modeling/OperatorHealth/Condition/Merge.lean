import OperatorHealth.Condition.Basic

/-!
# Merging a condition into a list

A condition replaces the first one of its kind, in place, or joins the list at its end. Its time
of transition is its own if it has one, and otherwise the clock, cut to whole seconds. A merge that
does not change the status keeps the time of the condition it replaces.

## Main definitions

* `Condition.transitionTime`: the time at which a condition takes effect.
* `Condition.replaceBy`: a condition after a newer one of its kind.
* `mergeCondition`, `mergeConditions`: a list after one newer condition, or several.
-/

namespace OperatorHealth

namespace Condition

/-- When a condition merged at `now` takes effect. -/
def transitionTime (now : Instant) (c : Condition) : Instant :=
  if c.lastTransition.isUnset then now.truncate else c.lastTransition

/-- The condition `old` after `c`, merged at `now`: reason and message are those of `c`, and so
are the status and its time if the status differs. -/
def replaceBy (now : Instant) (old c : Condition) : Condition :=
  { old with
    status := c.status
    reason := c.reason
    message := c.message
    lastTransition :=
      if old.status = c.status then old.lastTransition else c.transitionTime now }

end Condition

/-- The list with `c` merged at `now`. -/
def mergeCondition (now : Instant) (c : Condition) : List Condition → List Condition
  | [] => [{ c with lastTransition := c.transitionTime now }]
  | x :: xs => if x.kind = c.kind then x.replaceBy now c :: xs else x :: mergeCondition now c xs

/-- The list `cs` with the conditions `new` merged at `now`, one after another. -/
def mergeConditions (now : Instant) (new cs : List Condition) : List Condition :=
  new.foldl (fun cs c => mergeCondition now c cs) cs

end OperatorHealth
