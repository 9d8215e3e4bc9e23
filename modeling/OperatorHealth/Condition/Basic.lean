import OperatorHealth.Time.Instant

/-!
# Conditions

A condition is one health signal of an operator: what it is about, whether it holds, why, and
since when. Kinds and statuses have a text, used in documents, and a numeric code.

## Main definitions

* `ConditionKind`, `ConditionStatus`: what a condition is about and whether it holds.
* `Condition`: one health signal.
* `findCondition`: the condition of a kind in a list.
-/

namespace OperatorHealth

/-- What a condition is about. -/
inductive ConditionKind
  | available
  | progressing
  | degraded
  | upgradeable
  deriving DecidableEq, Repr

namespace ConditionKind

/-- The kinds in the order of their codes. -/
def all : List ConditionKind := [available, progressing, degraded, upgradeable]

/-- The text of a kind. -/
def text : ConditionKind → String
  | available => "Available"
  | progressing => "Progressing"
  | degraded => "Degraded"
  | upgradeable => "Upgradeable"

/-- The code of a kind. -/
def code : ConditionKind → UInt8
  | available => 0
  | progressing => 1
  | degraded => 2
  | upgradeable => 3

/-- The kind with a text. -/
def ofText? (s : String) : Option ConditionKind := all.find? (·.text == s)

/-- The kind with a code. -/
def ofCode? (n : UInt8) : Option ConditionKind := all.find? (·.code == n)

/-- The text for a code, `UNKNOWN` if no kind has it. -/
def describe (n : UInt8) : String := ((ofCode? n).map text).getD "UNKNOWN"

end ConditionKind

/-- Whether a condition holds. -/
inductive ConditionStatus
  | true
  | false
  | unknown
  deriving DecidableEq, Repr

namespace ConditionStatus

/-- The statuses in the order of their codes. -/
def all : List ConditionStatus := [.true, .false, unknown]

/-- The text of a status. -/
def text : ConditionStatus → String
  | .true => "True"
  | .false => "False"
  | unknown => "Unknown"

/-- The code of a status. -/
def code : ConditionStatus → UInt8
  | .true => 0
  | .false => 1
  | unknown => 2

/-- The status with a text. -/
def ofText? (s : String) : Option ConditionStatus := all.find? (·.text == s)

/-- The status with a code. -/
def ofCode? (n : UInt8) : Option ConditionStatus := all.find? (·.code == n)

/-- The text for a code, that of `unknown` if no status has it. -/
def describe (n : UInt8) : String := ((ofCode? n).getD unknown).text

end ConditionStatus

/-- One health signal. The time of the last transition moves only when the status changes. -/
structure Condition where
  kind : ConditionKind
  status : ConditionStatus
  reason : String := ""
  message : String := ""
  lastTransition : Instant := .unset
  deriving DecidableEq, Repr

/-- The first condition of a kind. -/
def findCondition (k : ConditionKind) (cs : List Condition) : Option Condition :=
  cs.find? (·.kind == k)

end OperatorHealth
