import OperatorHealth.Text.Blank

/-!
# Spelled-out integers

An integer is a sign, if any, and digits: hexadecimal after `0x` or `0X`, octal after a leading
`0`, and decimal otherwise. Blanks may follow, and nothing else.

## Main definitions

* `Integer.read?`: the integer that a text spells out.
-/

namespace OperatorHealth.Integer

/-- The value of a digit of base `16` or less. -/
def digitValue? (c : Char) : Option Nat :=
  if c.isDigit then some (c.toNat - '0'.toNat)
  else if 'a' ≤ c ∧ c ≤ 'f' then some (c.toNat - 'a'.toNat + 10)
  else if 'A' ≤ c ∧ c ≤ 'F' then some (c.toNat - 'A'.toNat + 10)
  else none

/-- Whether a character is a digit of a base. -/
def isDigitOf (base : Nat) (c : Char) : Bool := (digitValue? c).any (· < base)

/-- The value of a list of digits of a base. -/
def value (base : Nat) (ds : List Char) : Nat :=
  ds.foldl (fun n c => base * n + (digitValue? c).getD 0) 0

/-- One or more digits of a base, then blanks. -/
def readDigits? (base : Nat) (cs : List Char) : Option Nat :=
  let ds := cs.takeWhile (isDigitOf base)
  if ds ≠ [] ∧ (cs.drop ds.length).all isBlank then some (value base ds) else none

/-- An integer without a sign. The leading `0` of an octal number is one of its digits. -/
def readNatural? : List Char → Option Nat
  | '0' :: 'x' :: ds => readDigits? 16 ds
  | '0' :: 'X' :: ds => readDigits? 16 ds
  | '0' :: ds => readDigits? 8 ('0' :: ds)
  | ds => readDigits? 10 ds

/-- The integer that a text spells out. -/
def read? : List Char → Option Int
  | '-' :: cs => (readNatural? cs).map fun n => -(n : Int)
  | '+' :: cs => (readNatural? cs).map fun n => (n : Int)
  | cs => (readNatural? cs).map fun n => (n : Int)

end OperatorHealth.Integer
