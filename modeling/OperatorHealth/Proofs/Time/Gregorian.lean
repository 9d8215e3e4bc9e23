import OperatorHealth.Proofs.Time.Calendar

/-!
# The Gregorian calendar

A date is real if its month is one of the twelve and its day one of the days of that month, of
which February has 29 in every fourth year but in those centuries that `400` does not divide. Real
dates and day numbers are the same thing: every number is that of one real date, a later date has a
greater number, and the day after a date has the next number.

## Main definitions

* `Date.monthLength`: the days of a month, by the rule of the calendar.
* `Date.IsReal`: the dates of the calendar.
* `Date.next`: the day after a date.
* `Date.Before`: the order of dates.

## Main results

* `Date.isReal_ofDayNumber`: the date with a number is real.
* `Date.dayNumber_lt_dayNumber`: a later date has a greater number.
* `Date.ofDayNumber_dayNumber`: the date with the number of a real date is that date.
* `Date.dayNumber_next`, `Date.ofDayNumber_add_one`: the day after a date.
-/

namespace OperatorHealth

namespace Date

variable {t u : Date} {y z : Int} {m n : Nat}

/-! ### Months -/

/-- The number of days of a month. -/
def monthLength (y : Int) (m : Nat) : Nat :=
  if m = 2 then if 4 ∣ y ∧ (¬ 100 ∣ y ∨ 400 ∣ y) then 29 else 28
  else if m ∈ [4, 6, 9, 11] then 30 else 31

theorem monthLength_bounds (y : Int) (m : Nat) : 1 ≤ monthLength y m ∧ monthLength y m ≤ 31 := by
  unfold monthLength
  split <;> split <;> decide

/-- A month of the year and a day of the month. -/
structure IsReal (t : Date) : Prop where
  month : 1 ≤ t.month ∧ t.month ≤ 12
  day : 1 ≤ t.day ∧ t.day ≤ monthLength t.year t.month

theorem isLeapYear_iff : isLeapYear y = true ↔ 4 ∣ y ∧ (¬ 100 ∣ y ∨ 400 ∣ y) := by
  simp only [isLeapYear, Bool.and_eq_true, Bool.or_eq_true, beq_iff_eq, bne_iff_ne, ne_eq,
    Int.dvd_iff_emod_eq_zero]

theorem getElem?_monthLengths (hm : 1 ≤ m ∧ m ≤ 12) :
    (monthLengths (isLeapYear y))[m - 1]? = some (monthLength y m) := by
  have hmonth : m = 1 ∨ m = 2 ∨ m = 3 ∨ m = 4 ∨ m = 5 ∨ m = 6 ∨ m = 7 ∨ m = 8 ∨ m = 9 ∨ m = 10 ∨
      m = 11 ∨ m = 12 := by omega
  have hleap : monthLength y 2 = if isLeapYear y then 29 else 28 := by
    simp only [monthLength, isLeapYear_iff, if_true]
  rcases hmonth with rfl | rfl | rfl | rfl | rfl | rfl | rfl | rfl | rfl | rfl | rfl | rfl
  case inr.inl => rw [hleap]; rfl
  all_goals rfl

/-- The days of a month come after those of the months before it. -/
theorem daysBeforeMonth_add_one (hm : 1 ≤ m ∧ m ≤ 12) :
    daysBeforeMonth (isLeapYear y) (m + 1) =
      daysBeforeMonth (isLeapYear y) m + monthLength y m := by
  have htable : ∀ leap : Bool, ∀ m ≤ 12, 1 ≤ m → daysBeforeMonth leap (m + 1) =
      daysBeforeMonth leap m + (monthLengths leap)[m - 1]?.getD 0 := by decide
  rw [htable _ m hm.2 hm.1, getElem?_monthLengths hm, Option.getD_some]

theorem daysBeforeMonth_mono (leap : Bool) (hmn : m ≤ n) (hn : n ≤ 13) :
    daysBeforeMonth leap m ≤ daysBeforeMonth leap n := by
  have htable : ∀ leap : Bool, ∀ n ≤ 13, ∀ m ≤ n,
      daysBeforeMonth leap m ≤ daysBeforeMonth leap n := by decide
  exact htable leap n hn m hmn

/-! ### Years -/

/-- A year starts after the twelve months of the year before it. -/
theorem yearStart_add_one (y : Int) :
    yearStart (y + 1) = yearStart y + daysBeforeMonth (isLeapYear y) 13 := by
  have htwelve : daysBeforeMonth (isLeapYear y) 13 = if isLeapYear y then 366 else 365 :=
    sum_monthLengths (isLeapYear y)
  rw [yearStart_succ, htwelve]
  split <;> rfl

theorem yearStart_mono (h : y ≤ z) : yearStart y ≤ yearStart z := by
  unfold yearStart
  omega

/-- A real date lies in its month. -/
theorem IsReal.dayOfYear_le (ht : t.IsReal) (hn : t.month < n ∧ n ≤ 13) :
    daysBeforeMonth (isLeapYear t.year) t.month + t.day ≤
      daysBeforeMonth (isLeapYear t.year) n := by
  have hmonth := daysBeforeMonth_add_one (y := t.year) ht.month
  have hmono := daysBeforeMonth_mono (isLeapYear t.year) (Nat.succ_le_of_lt hn.1) hn.2
  rw [Nat.succ_eq_add_one] at hmono
  have hday := ht.day.2
  omega

/-- A real date lies in its year. -/
theorem IsReal.dayNumber_bounds (ht : t.IsReal) :
    yearStart t.year ≤ t.dayNumber ∧ t.dayNumber < yearStart (t.year + 1) := by
  have hle := ht.dayOfYear_le (n := 13) ⟨by have := ht.month; omega, Nat.le_refl 13⟩
  have hday := ht.day.1
  rw [yearStart_add_one, dayNumber]
  omega

/-! ### The order of dates -/

/-- A date is before another by its year, in one year by its month, and in one month by its day. -/
inductive Before (t u : Date) : Prop
  | year (hyear : t.year < u.year)
  | month (hyear : t.year = u.year) (hmonth : t.month < u.month)
  | day (hyear : t.year = u.year) (hmonth : t.month = u.month) (hday : t.day < u.day)

theorem before_or_eq_or_before (t u : Date) : t.Before u ∨ t = u ∨ u.Before t := by
  rcases Int.lt_trichotomy t.year u.year with hyear | hyear | hyear
  · exact .inl (.year hyear)
  · rcases Nat.lt_trichotomy t.month u.month with hmonth | hmonth | hmonth
    · exact .inl (.month hyear hmonth)
    · rcases Nat.lt_trichotomy t.day u.day with hday | hday | hday
      · exact .inl (.day hyear hmonth hday)
      · obtain ⟨_, _, _⟩ := t
        obtain ⟨_, _, _⟩ := u
        cases hyear; cases hmonth; cases hday
        exact .inr (.inl rfl)
      · exact .inr (.inr (.day hyear.symm hmonth.symm hday))
    · exact .inr (.inr (.month hyear.symm hmonth))
  · exact .inr (.inr (.year hyear))

/-- **A later date has a greater number.** -/
theorem dayNumber_lt_dayNumber (ht : t.IsReal) (hu : u.IsReal) (h : t.Before u) :
    t.dayNumber < u.dayNumber := by
  cases h with
  | year hyear =>
    have hstart : yearStart (t.year + 1) ≤ yearStart u.year := yearStart_mono hyear
    have hlast := ht.dayNumber_bounds.2
    have hfirst := hu.dayNumber_bounds.1
    omega
  | month hyear hmonth =>
    have hle := ht.dayOfYear_le (n := u.month) ⟨hmonth, by have := hu.month; omega⟩
    have hday := hu.day.1
    rw [dayNumber, dayNumber, ← hyear]
    omega
  | day hyear hmonth hday =>
    rw [dayNumber, dayNumber, ← hyear, ← hmonth]
    omega

/-- Real dates are told apart by their numbers. -/
theorem eq_of_dayNumber_eq (ht : t.IsReal) (hu : u.IsReal) (h : t.dayNumber = u.dayNumber) :
    t = u := by
  rcases before_or_eq_or_before t u with hlt | heq | hlt
  · have := dayNumber_lt_dayNumber ht hu hlt
    omega
  · exact heq
  · have := dayNumber_lt_dayNumber hu ht hlt
    omega

/-! ### Dates from numbers -/

/-- Of the days of a year, the one that was split off lies in its month. -/
theorem exists_length_splitDays (m : Nat) (ls : List Nat) (hn : n < ls.foldr (· + ·) 0) :
    ∃ l, ls[(splitDays m ls n).1 - m]? = some l ∧ (splitDays m ls n).2 ≤ l := by
  induction ls generalizing m n with
  | nil => simp at hn
  | cons l ls ih =>
    rw [splitDays]
    split
    · next hl => exact ⟨l, by simp, hl⟩
    · next hl =>
      have hn' : n - l < ls.foldr (· + ·) 0 := by
        rw [List.foldr_cons] at hn
        omega
      obtain ⟨l', hl', hday⟩ := ih (m + 1) hn'
      have hle := (splitDays_spec (m + 1) ls hn').1
      have hindex : (splitDays (m + 1) ls (n - l)).1 - m =
          (splitDays (m + 1) ls (n - l)).1 - (m + 1) + 1 := by omega
      exact ⟨l', by rw [hindex, List.getElem?_cons_succ, hl'], hday⟩

/-- **The date with a number is real.** -/
theorem isReal_ofDayNumber (d : Int) : (ofDayNumber d).IsReal := by
  obtain ⟨hmonth, hone, -⟩ := ofDayNumber_bounds d
  obtain ⟨l, hl, hday⟩ := exists_length_splitDays 1 _ (dayOfYear_lt d)
  have hlength := getElem?_monthLengths (y := yearOf d) hmonth
  have heq : some l = some (monthLength (yearOf d) (ofDayNumber d).month) := hl.symm.trans hlength
  cases heq
  exact ⟨hmonth, hone, hday⟩

/-- **The date with the number of a real date is that date.** -/
theorem ofDayNumber_dayNumber (ht : t.IsReal) : ofDayNumber t.dayNumber = t :=
  eq_of_dayNumber_eq (isReal_ofDayNumber _) ht (dayNumber_ofDayNumber _)

/-! ### The day after a date -/

/-- The day after a date: of its month, the first of the next month, or New Year. -/
def next (t : Date) : Date :=
  if t.day < monthLength t.year t.month then { t with day := t.day + 1 }
  else if t.month < 12 then { t with month := t.month + 1, day := 1 }
  else ⟨t.year + 1, 1, 1⟩

theorem IsReal.next (ht : t.IsReal) : t.next.IsReal := by
  have hmonth := ht.month
  unfold Date.next
  split
  · next hday => exact ⟨hmonth, by dsimp only; omega, hday⟩
  · split
    · next hlt => exact ⟨by dsimp only; omega, Nat.le_refl 1, (monthLength_bounds _ _).1⟩
    · exact ⟨⟨Nat.le_refl 1, by dsimp only; decide⟩, Nat.le_refl 1, (monthLength_bounds _ _).1⟩

/-- **The day after a date has the next number.** -/
theorem dayNumber_next (ht : t.IsReal) : t.next.dayNumber = t.dayNumber + 1 := by
  have hmonth := ht.month
  have hday := ht.day.2
  have hdays := daysBeforeMonth_add_one (y := t.year) hmonth
  unfold next
  split
  · simp only [dayNumber]
    omega
  · split
    · simp only [dayNumber, hdays]
      omega
    · have hdecember : t.month = 12 := by omega
      have hfirst : daysBeforeMonth (isLeapYear (t.year + 1)) 1 = 0 := rfl
      have hlast : t.day = monthLength t.year t.month := by omega
      have hyear : daysBeforeMonth (isLeapYear t.year) 13 =
          daysBeforeMonth (isLeapYear t.year) t.month + t.day := by rw [hlast, ← hdays, hdecember]
      simp only [dayNumber, yearStart_add_one, hyear, hfirst]
      omega

/-- The date with the next number is the day after. -/
theorem ofDayNumber_add_one (d : Int) : ofDayNumber (d + 1) = (ofDayNumber d).next := by
  have hreal := isReal_ofDayNumber d
  have hnext : (ofDayNumber d).next.dayNumber = d + 1 := by
    rw [dayNumber_next hreal, dayNumber_ofDayNumber]
  rw [← hnext, ofDayNumber_dayNumber hreal.next]

end Date

end OperatorHealth
