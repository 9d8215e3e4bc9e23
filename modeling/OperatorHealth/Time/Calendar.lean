/-!
# The civil calendar

Days of the proleptic Gregorian calendar, counted from 1 January 1970, which is day `0`; earlier
days have negative numbers. The count is linear in the day of the month, so a day `0`, or a day
past the end of its month, names a day of a neighbouring month.

## Main definitions

* `Date`: a year, a month and a day of the month.
* `Date.dayNumber`: the number of a date.
* `Date.ofDayNumber`: the date with a given number.
-/

namespace OperatorHealth

/-- A day of the civil calendar. Months and days of the month are counted from `1`. -/
structure Date where
  year : Int
  month : Nat
  day : Nat
  deriving DecidableEq, Repr

namespace Date

/-! ### Years -/

/-- Every fourth year is a leap year, except the centuries that `400` does not divide. -/
def isLeapYear (y : Int) : Bool :=
  y % 4 == 0 && (y % 100 != 0 || y % 400 == 0)

/-- The number of 1 January of the year `y`. From year `1` to 1970 there are `477` leap years. -/
def yearStart (y : Int) : Int :=
  365 * (y - 1970) + ((y - 1) / 4 - (y - 1) / 100 + (y - 1) / 400) - 477

/-- The year that contains the day number `d`. Dividing by the mean length of a year misses it by
at most one. -/
def yearOf (d : Int) : Int :=
  let y := 1970 + 400 * d / 146097
  if yearStart (y + 1) ≤ d then y + 1 else if yearStart y ≤ d then y else y - 1

/-! ### Months -/

/-- The lengths of the twelve months. -/
def monthLengths (leap : Bool) : List Nat :=
  [31, if leap then 29 else 28, 31, 30, 31, 30, 31, 31, 30, 31, 30, 31]

/-- The days of the year before the month `m`. -/
def daysBeforeMonth (leap : Bool) (m : Nat) : Nat :=
  ((monthLengths leap).take (m - 1)).foldr (· + ·) 0

/-- The month and the day of the month of the day `n` of a year, where `m` is the first of the
months whose lengths are listed and days are counted from `0`. -/
def splitDays (m : Nat) : List Nat → Nat → Nat × Nat
  | [], n => (m, n + 1)
  | l :: ls, n => if n < l then (m, n + 1) else splitDays (m + 1) ls (n - l)

/-! ### Day numbers -/

/-- The number of a date, linear in the day of the month. -/
def dayNumber (t : Date) : Int :=
  yearStart t.year + daysBeforeMonth (isLeapYear t.year) t.month + t.day - 1

/-- The date with the given number. -/
def ofDayNumber (d : Int) : Date :=
  let y := yearOf d
  let (m, k) := splitDays 1 (monthLengths (isLeapYear y)) (d - yearStart y).toNat
  ⟨y, m, k⟩

end Date

end OperatorHealth
