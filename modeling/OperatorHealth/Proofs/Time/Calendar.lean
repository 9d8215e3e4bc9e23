import OperatorHealth.Time.Calendar

/-!
# Dates and day numbers

The date with a given number has that number, whichever year it falls in: the year found by dividing
by the mean length of a year, and moved by one if that misses it, is the one that contains the day,
and the days of a year are split among its months. Such a date names a month from 1 to 12 and a day
of it from 1 to 31.

## Main results

* `Date.yearOf_bounds`: the year of a day contains it.
* `Date.dayNumber_ofDayNumber`: the date with a number has that number.
* `Date.ofDayNumber_bounds`: the ranges of its parts.
-/

namespace OperatorHealth

namespace Date

/-! ### Years -/

/-- The length of a year. -/
theorem yearStart_succ (y : Int) :
    yearStart (y + 1) = yearStart y + (if isLeapYear y then 366 else 365) := by
  have hleap : isLeapYear y = true ↔ y % 4 = 0 ∧ (y % 100 ≠ 0 ∨ y % 400 = 0) := by
    simp [isLeapYear]
  unfold yearStart
  split
  · next h => have := hleap.mp h; omega
  · next h => rw [hleap] at h; omega

/-- The number of leap years up to a year is close to its mean. -/
theorem leapYears_bounds (z : Int) :
    97 * z - 591 ≤ 400 * (z / 4 - z / 100 + z / 400) ∧
      400 * (z / 4 - z / 100 + z / 400) ≤ 97 * z + 288 := by
  -- the part of a period of 400 years, and the century in it
  obtain ⟨e, r, hz, hr, hr'⟩ : ∃ e r, z = 400 * e + r ∧ 0 ≤ r ∧ r < 400 :=
    ⟨z / 400, z % 400, by omega, by omega, by omega⟩
  have h4 : z / 4 = 100 * e + r / 4 := by omega
  have h100 : z / 100 = 4 * e + r / 100 := by omega
  have h400 : z / 400 = e := by omega
  have hcentury : r / 100 = 0 ∨ r / 100 = 1 ∨ r / 100 = 2 ∨ r / 100 = 3 := by omega
  rw [h4, h100, h400, hz]
  rcases hcentury with h | h | h | h <;> rw [h] <;> omega

theorem yearStart_bounds (y : Int) :
    146097 * (y - 1970) - 398 ≤ 400 * yearStart y ∧
      400 * yearStart y ≤ 146097 * (y - 1970) + 481 := by
  have hleap := leapYears_bounds (y - 1)
  unfold yearStart
  omega

/-- The year found for a day contains it. -/
theorem yearOf_bounds (d : Int) : yearStart (yearOf d) ≤ d ∧ d < yearStart (yearOf d + 1) := by
  have hbefore := yearStart_bounds (1970 + 400 * d / 146097 - 1)
  have hafter := yearStart_bounds (1970 + 400 * d / 146097 + 2)
  have hcancel : (1970 + 400 * d / 146097 - 1) + 1 = 1970 + 400 * d / 146097 := by omega
  have hnext : (1970 + 400 * d / 146097 + 1) + 1 = 1970 + 400 * d / 146097 + 2 := by omega
  unfold yearOf
  dsimp only
  split
  · rw [hnext]
    omega
  · split
    · omega
    · rw [hcancel]
      omega

/-! ### Months -/

/-- The days of a year split among months: the month lies in the list, the day of the month in the
month, and together with the days of the months before they are the days that were split. -/
theorem splitDays_spec (m : Nat) (ls : List Nat) {n : Nat} (hn : n < ls.foldr (· + ·) 0) :
    m ≤ (splitDays m ls n).1 ∧ (splitDays m ls n).1 < m + ls.length ∧
      1 ≤ (splitDays m ls n).2 ∧ (∃ l ∈ ls, (splitDays m ls n).2 ≤ l) ∧
      (ls.take ((splitDays m ls n).1 - m)).foldr (· + ·) 0 + (splitDays m ls n).2 = n + 1 := by
  induction ls generalizing m n with
  | nil => simp at hn
  | cons l ls ih =>
    rw [splitDays]
    split
    · next hl => exact ⟨Nat.le_refl m, by simp, by simp, ⟨l, List.mem_cons_self .., hl⟩, by simp⟩
    · next hl =>
      obtain ⟨hle, hlt, hone, ⟨l', hl', hday⟩, hsum⟩ :=
        ih (m + 1) (n := n - l) (by rw [List.foldr_cons] at hn; omega)
      refine ⟨by omega, by rw [List.length_cons]; omega, hone,
        ⟨l', List.mem_cons_of_mem _ hl', hday⟩, ?_⟩
      have hindex : (splitDays (m + 1) ls (n - l)).1 - m =
          (splitDays (m + 1) ls (n - l)).1 - (m + 1) + 1 := by omega
      rw [hindex, List.take_succ_cons, List.foldr_cons]
      omega

theorem sum_monthLengths (leap : Bool) :
    (monthLengths leap).foldr (· + ·) 0 = if leap then 366 else 365 := by
  cases leap <;> rfl

theorem le_of_mem_monthLengths {leap : Bool} {l : Nat} (h : l ∈ monthLengths leap) : l ≤ 31 := by
  cases leap <;> simp [monthLengths] at h <;> omega

/-! ### Dates -/

/-- The day of its year that a day number is, counted from `0`. -/
theorem dayOfYear_lt (d : Int) : (d - yearStart (yearOf d)).toNat <
    (monthLengths (isLeapYear (yearOf d))).foldr (· + ·) 0 := by
  obtain ⟨hle, hlt⟩ := yearOf_bounds d
  rw [yearStart_succ] at hlt
  rw [sum_monthLengths]
  split at hlt <;> simp [*] <;> omega

/-- The parts of a date with a given number lie in their ranges. -/
theorem ofDayNumber_bounds (d : Int) : (1 ≤ (ofDayNumber d).month ∧ (ofDayNumber d).month ≤ 12) ∧
    (1 ≤ (ofDayNumber d).day ∧ (ofDayNumber d).day ≤ 31) := by
  obtain ⟨hle, hlt, hone, ⟨l, hl, hday⟩, -⟩ := splitDays_spec 1 _ (dayOfYear_lt d)
  have hlength : (monthLengths (isLeapYear (yearOf d))).length = 12 := rfl
  exact ⟨⟨hle, by simp only [ofDayNumber]; omega⟩,
    hone, Nat.le_trans hday (le_of_mem_monthLengths hl)⟩

/-- **The date with a given number has that number.** -/
theorem dayNumber_ofDayNumber (d : Int) : (ofDayNumber d).dayNumber = d := by
  obtain ⟨-, -, -, -, hsum⟩ := splitDays_spec 1 _ (dayOfYear_lt d)
  have hle := (yearOf_bounds d).1
  simp only [dayNumber, ofDayNumber, daysBeforeMonth]
  omega

end Date

end OperatorHealth
