import OperatorHealth.Condition.Basic

/-!
# Degraded conditions by tier

An operator can be degraded for reasons of three tiers. A ledger keeps at most one condition for
each tier and shows the one of the most important tier: a failure of the cluster configuration
hides one of the operator configuration, and that one hides failures of pods.

## Main definitions

* `Tier`: the three tiers, and `Tier.ofCode?`, which refuses the code of no tier.
* `DegradedLedger`: the condition of each tier.
* `DegradedLedger.shown`: the condition that the ledger shows.
-/

namespace OperatorHealth

/-- The tier of a reason for being degraded. -/
inductive Tier
  | clusterConfig
  | operatorConfig
  | podDeployment
  deriving DecidableEq, Repr

/-- A code that belongs to no tier. -/
structure InvalidTier where
  code : UInt8
  deriving DecidableEq, Repr

/-- The text of the error. -/
def InvalidTier.message (e : InvalidTier) : String := s!"Invalid status level {e.code.toNat}"

namespace Tier

/-- The tiers, the most important first. -/
def all : List Tier := [clusterConfig, operatorConfig, podDeployment]

/-- The text of a tier. -/
def text : Tier → String
  | clusterConfig => "CLUSTER_CONFIG"
  | operatorConfig => "OPERATOR_CONFIG"
  | podDeployment => "POD_DEPLOYMENT"

/-- The code of a tier. -/
def code : Tier → UInt8
  | clusterConfig => 0
  | operatorConfig => 1
  | podDeployment => 2

/-- The tier with a code. -/
def ofCode? (n : UInt8) : Except InvalidTier Tier :=
  match all.find? (·.code == n) with
  | some t => .ok t
  | none => .error ⟨n⟩

/-- The text for a code, `UNKNOWN` if no tier has it. -/
def describe (n : UInt8) : String :=
  match ofCode? n with
  | .ok t => t.text
  | .error _ => "UNKNOWN"

end Tier

/-- The Degraded condition reported for each tier, if there is one. -/
structure DegradedLedger where
  entry : Tier → Option Condition

namespace DegradedLedger

/-- The ledger without entries. -/
def empty : DegradedLedger := ⟨fun _ => none⟩

/-- The ledger with the entry of one tier written, or cleared. -/
def set (l : DegradedLedger) (t : Tier) (c : Option Condition) : DegradedLedger :=
  ⟨fun u => if u = t then c else l.entry u⟩

/-- Whether a tier has an entry. -/
def has (l : DegradedLedger) (t : Tier) : Bool := (l.entry t).isSome

/-- The condition of an operator that is not degraded. -/
def notDegraded : Condition := { kind := .degraded, status := .false }

/-- The condition that the ledger shows: that of the most important tier with an entry. -/
def shown (l : DegradedLedger) : Condition := (Tier.all.findSome? l.entry).getD notDegraded

/-- The most important tier with an entry. -/
def shownTier (l : DegradedLedger) : Option Tier := Tier.all.find? l.has

/-! ### Tiers given by their codes -/

/-- `set` for the tier with a code. -/
def setCode (l : DegradedLedger) (n : UInt8) (c : Option Condition) :
    Except InvalidTier DegradedLedger :=
  (Tier.ofCode? n).map fun t => l.set t c

/-- `has` for the tier with a code. -/
def hasCode (l : DegradedLedger) (n : UInt8) : Except InvalidTier Bool :=
  (Tier.ofCode? n).map l.has

end DegradedLedger

end OperatorHealth
