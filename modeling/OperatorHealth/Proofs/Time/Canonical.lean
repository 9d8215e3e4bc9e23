import Mathlib.Data.Set.Function
import OperatorHealth.Proofs.Resource.Reencoding
import OperatorHealth.Proofs.Time.Gregorian

/-!
# Canonical timestamps

A text is canonical if it spells out a real date and a time of day at full width, and the instant it
names is one that a word of nanoseconds can hold. Writing and reading are inverse to each other
between the instants on a full second and these texts: an instant is written as a canonical text,
and a canonical text is read as the instant that is written so.

## Main definitions

* `Timestamp.Spells`: a text with its numbers at full width, and the marks between them.
* `Timestamp.Fields.IsReal`: a real date and a time of day.
* `Timestamp.IsCanonical`: the canonical texts.
* `Instant.IsWhole`: the instants on a full second.

## Main results

* `Timestamp.Fields.ofSeconds_seconds`: the date and the time of day are found again.
* `Timestamp.isCanonical_write`: the text of an instant is canonical.
* `Timestamp.write_of_spells`: a canonical text is written again.
* `Timestamp.bijOn_write`, `Timestamp.bijOn_read?`: instants on a full second and their texts.
* `Timestamp.write_read?_inverse`: both directions.
-/

namespace OperatorHealth

/-! ### Instants on a full second -/

namespace Instant

/-- An instant without a part of a second. -/
def IsWhole (t : Instant) : Prop := nanosPerSecond ∣ t.nanos.toInt

variable {s : Int} {t u : Instant}

theorem eq_of_toInt_nanos_eq (h : t.nanos.toInt = u.nanos.toInt) : t = u := by
  cases t
  cases u
  exact congrArg mk (Int64.toInt_inj.mp h)

theorem IsWhole.truncate_eq (h : t.IsWhole) : t.truncate = t := by
  refine eq_of_toInt_nanos_eq ?_
  rw [toInt_nanos_truncate, Int.tdiv_mul_cancel h]

/-- A number of seconds whose nanoseconds a word can hold. -/
def Holds (s : Int) : Prop :=
  Int64.minValue.toInt ≤ s * nanosPerSecond ∧ s * nanosPerSecond ≤ Int64.maxValue.toInt

instance (s : Int) : Decidable (Holds s) :=
  inferInstanceAs (Decidable (_ ∧ _))

theorem Holds.toInt_nanos (h : Holds s) : (ofSeconds s).nanos.toInt = s * nanosPerSecond := by
  have hmax : Int64.maxValue.toInt = 2 ^ 63 - 1 := rfl
  have hhigh := h.2
  exact Int64.toInt_ofInt_of_le h.1 (by omega)

theorem Holds.isWhole_ofSeconds (h : Holds s) : (ofSeconds s).IsWhole := by
  rw [IsWhole, h.toInt_nanos]
  exact Int.dvd_mul_left _ _

theorem Holds.seconds_ofSeconds (h : Holds s) : (ofSeconds s).seconds = s := by
  rw [seconds, h.toInt_nanos, Int.mul_tdiv_cancel _ (by decide)]

theorem holds_seconds (t : Instant) : Holds t.seconds := by
  have hnanos : t.truncate.nanos.toInt = t.seconds * nanosPerSecond := toInt_nanos_truncate t
  rw [Holds, ← hnanos]
  exact ⟨Int64.minValue_le_toInt _, Int64.toInt_le _⟩

end Instant

namespace Timestamp

/-! ### Digits -/

/-- Decimal digits, as many as the width. -/
structure AreDigits (width : Nat) (ds : List Char) : Prop where
  length : ds.length = width
  digit : ∀ c ∈ ds, c.isDigit = true

variable {width n : Nat} {ds : List Char} {c : Char}

theorem areDigits_digits (width n : Nat) : AreDigits width (digits width n) :=
  ⟨length_digits width n, fun _ => isDigit_of_mem_digits⟩

theorem exists_digitChar_eq (h : c.isDigit = true) : ∃ d < 10, Nat.digitChar d = c := by
  have hrange : 48 ≤ c.toNat ∧ c.toNat ≤ 57 := by
    simpa [Char.isDigit, UInt32.le_iff_toNat_le] using h
  refine ⟨c.toNat - 48, by omega, Char.toNat_inj.mp ?_⟩
  rw [Nat.toNat_digitChar_of_lt_ten (by omega)]
  omega

/-- Digits are those of a number that fits the width. -/
theorem AreDigits.exists_digits_eq (h : AreDigits width ds) :
    ∃ n < 10 ^ width, digits width n = ds := by
  induction width generalizing ds with
  | zero => exact ⟨0, by decide, (List.eq_nil_of_length_eq_zero h.length).symm⟩
  | succ width ih =>
    rcases List.eq_nil_or_concat ds with rfl | ⟨ds, c, rfl⟩
    · cases h.length
    · have hlength : ds.length = width := by simpa using h.length
      obtain ⟨n, hn, rfl⟩ := ih ⟨hlength, fun c hc => h.digit c (by simp [hc])⟩
      obtain ⟨d, hd, rfl⟩ := exists_digitChar_eq (h.digit c (by simp))
      have htens : (10 * n + d) / 10 = n := by omega
      have hones : (10 * n + d) % 10 = d := by omega
      refine ⟨10 * n + d, by rw [Nat.pow_succ]; omega, ?_⟩
      rw [digits, htens, hones, List.concat_eq_append]

theorem AreDigits.decimal_lt (h : AreDigits width ds) : decimal ds < 10 ^ width := by
  obtain ⟨n, hn, rfl⟩ := h.exists_digits_eq
  rwa [decimal_digits hn]

/-- Digits are written again. -/
theorem AreDigits.digits_decimal (h : AreDigits width ds) : digits width (decimal ds) = ds := by
  obtain ⟨n, hn, rfl⟩ := h.exists_digits_eq
  rw [decimal_digits hn]

/-! ### Texts at full width -/

/-- A text spells out a date and a time of day: four digits for the year and two for each other
number, with the marks between them. -/
inductive Spells : String → Fields → Prop
  | text {year month day hour minute second : List Char} (hyear : AreDigits 4 year)
      (hmonth : AreDigits 2 month) (hday : AreDigits 2 day) (hhour : AreDigits 2 hour)
      (hminute : AreDigits 2 minute) (hsecond : AreDigits 2 second) :
      Spells
        (String.ofList (year ++ '-' :: month ++ '-' :: day ++ 'T' :: hour ++ ':' :: minute ++
          ':' :: second ++ ['Z']))
        { year := decimal year, month := decimal month, day := decimal day
          hour := decimal hour, minute := decimal minute, second := decimal second }

variable {text : String} {f : Fields}

theorem Spells.eq_ofList_chars (h : Spells text f) : text = String.ofList f.chars := by
  obtain ⟨hyear, hmonth, hday, hhour, hminute, hsecond⟩ := h
  simp only [Fields.chars, hyear.digits_decimal, hmonth.digits_decimal, hday.digits_decimal,
    hhour.digits_decimal, hminute.digits_decimal, hsecond.digits_decimal]

theorem Spells.year_le (h : Spells text f) : f.year ≤ 9999 := by
  obtain ⟨hyear, -, -, -, -, -⟩ := h
  exact Nat.le_of_lt_succ hyear.decimal_lt

theorem Fields.InRange.spells (h : f.InRange) : Spells (String.ofList f.chars) f := by
  have hdecimal : ∀ {n}, n ≤ 99 → decimal (digits 2 n) = n := fun hn =>
    decimal_digits (Nat.lt_succ_of_le hn)
  have hyear : decimal (digits 4 f.year) = f.year := decimal_digits (Nat.lt_succ_of_le h.year)
  have hmonth := hdecimal (h.month.2.trans (by decide))
  have hday := hdecimal (h.day.2.trans (by decide))
  have hhour := hdecimal (h.hour.trans (by decide))
  have hminute := hdecimal (h.minute.trans (by decide))
  have hsecond := hdecimal (h.second.trans (by decide))
  have hspells := Spells.text (areDigits_digits 4 f.year) (areDigits_digits 2 f.month)
    (areDigits_digits 2 f.day) (areDigits_digits 2 f.hour) (areDigits_digits 2 f.minute)
    (areDigits_digits 2 f.second)
  rwa [hyear, hmonth, hday, hhour, hminute, hsecond] at hspells

/-! ### Real dates and times of day -/

namespace Fields

/-- The date. -/
def date (f : Fields) : Date := ⟨f.year, f.month, f.day⟩

/-- A date of the calendar and a time of day. -/
structure IsReal (f : Fields) : Prop where
  date : f.date.IsReal
  hour : f.hour ≤ 23
  minute : f.minute ≤ 59
  second : f.second ≤ 59

theorem IsReal.inRange (h : f.IsReal) (hyear : f.year ≤ 9999) : f.InRange where
  year := hyear
  month := h.date.month
  day := ⟨h.date.day.1, h.date.day.2.trans (Date.monthLength_bounds _ _).2⟩
  hour := h.hour
  minute := h.minute
  second := h.second.trans (by decide)

/-- **The date and the time of day are found again** from the seconds they come to. -/
theorem ofSeconds_seconds (h : f.IsReal) : ofSeconds f.seconds = f := by
  have hhour := h.hour
  have hminute := h.minute
  have hsecond := h.second
  have hday : f.seconds / 86400 = f.date.dayNumber := by
    rw [seconds, ← date]
    omega
  have hclock : (f.seconds % 86400).toNat = f.hour * 3600 + f.minute * 60 + f.second := by
    rw [seconds, ← date]
    omega
  have hhour' : (f.hour * 3600 + f.minute * 60 + f.second) / 3600 = f.hour := by omega
  have hminute' : (f.hour * 3600 + f.minute * 60 + f.second) / 60 % 60 = f.minute := by omega
  have hsecond' : (f.hour * 3600 + f.minute * 60 + f.second) % 60 = f.second := by omega
  rw [ofSeconds, hday, hclock, Date.ofDayNumber_dayNumber h.date, hhour', hminute', hsecond']
  rfl

theorem date_ofSeconds {s : Int} (h : 0 ≤ Date.yearOf (s / 86400)) :
    (ofSeconds s).date = Date.ofDayNumber (s / 86400) := by
  have hyear : ((Date.ofDayNumber (s / 86400)).year.toNat : Int) =
      (Date.ofDayNumber (s / 86400)).year := Int.toNat_of_nonneg h
  simp only [date, ofSeconds, hyear]

theorem isReal_ofSeconds {s : Int} (h : 0 ≤ Date.yearOf (s / 86400)) : (ofSeconds s).IsReal := by
  refine ⟨?_, ?_, ?_, ?_⟩
  · rw [date_ofSeconds h]
    exact Date.isReal_ofDayNumber _
  all_goals simp only [ofSeconds]; omega

end Fields

/-! ### The round trip -/

/-- The text spells out a real date and a time of day, and names an instant that a word of
nanoseconds can hold. -/
def IsCanonical (text : String) : Prop :=
  ∃ f, Spells text f ∧ f.IsReal ∧ Instant.Holds f.seconds

/-- **The text of an instant is canonical.** -/
theorem isCanonical_write (t : Instant) : IsCanonical (write t) := by
  have hyear := (yearOf_seconds_bounds t).1
  have hholds : Instant.Holds (Fields.ofSeconds t.seconds).seconds := by
    rw [Fields.seconds_ofSeconds hyear]
    exact Instant.holds_seconds t
  exact ⟨_, (inRange_ofSeconds t).spells, Fields.isReal_ofSeconds hyear, hholds⟩

/-- A text at full width is read as the instant it spells out. -/
theorem read?_of_spells (hspells : Spells text f) (hreal : f.IsReal) :
    read? text = some (.ofSeconds f.seconds) := by
  rw [hspells.eq_ofList_chars, read?, fields?_chars (hreal.inRange hspells.year_le)]
  rfl

/-- **A canonical text is written again.** -/
theorem write_of_spells (hspells : Spells text f) (hreal : f.IsReal)
    (hholds : Instant.Holds f.seconds) : write (.ofSeconds f.seconds) = text := by
  rw [write, hholds.seconds_ofSeconds, Fields.ofSeconds_seconds hreal, hspells.eq_ofList_chars]

/-- A canonical text is that of an instant on a full second, which is read from it. -/
theorem IsCanonical.exists_whole (h : IsCanonical text) :
    ∃ t : Instant, t.IsWhole ∧ read? text = some t ∧ write t = text := by
  obtain ⟨f, hspells, hreal, hholds⟩ := h
  exact ⟨_, hholds.isWhole_ofSeconds, read?_of_spells hspells hreal,
    write_of_spells hspells hreal hholds⟩

theorem read?_write_of_isWhole {t : Instant} (h : t.IsWhole) : read? (write t) = some t := by
  rw [read?_write, h.truncate_eq]

/-- Each canonical text is that of one instant on a full second. -/
theorem bijOn_write : Set.BijOn write {t | t.IsWhole} {text | IsCanonical text} := by
  refine ⟨fun t _ => isCanonical_write t, ?_, ?_⟩
  · intro t ht u hu htext
    have hsome : some t = some u := by
      rw [← read?_write_of_isWhole ht, htext, read?_write_of_isWhole hu]
    exact Option.some.inj hsome
  · intro text h
    obtain ⟨t, hwhole, -, hwrite⟩ := IsCanonical.exists_whole h
    exact ⟨t, hwhole, hwrite⟩

/-- Each instant on a full second is read from one canonical text. -/
theorem bijOn_read? : Set.BijOn read? {text | IsCanonical text} (some '' {t | t.IsWhole}) := by
  refine ⟨?_, ?_, ?_⟩
  · intro text h
    obtain ⟨t, hwhole, hread, -⟩ := IsCanonical.exists_whole h
    exact ⟨t, hwhole, hread.symm⟩
  · intro text htext text' htext' hread
    obtain ⟨t, -, ht, rfl⟩ := IsCanonical.exists_whole htext
    obtain ⟨u, -, hu, rfl⟩ := IsCanonical.exists_whole htext'
    rw [ht, hu] at hread
    rw [Option.some.inj hread]
  · rintro _ ⟨t, hwhole, rfl⟩
    exact ⟨write t, isCanonical_write t, read?_write_of_isWhole hwhole⟩

/-- **Writing and reading are inverse to each other.** What is read from the text of an instant is
the instant without its part of a second, what is written of the instant that a canonical text names
is that text, and so instants on a full second and canonical texts are in bijection both ways. -/
theorem write_read?_inverse :
    (∀ t : Instant, ∃ u, read? (write t) = some u ∧
      u.nanos.toInt = t.nanos.toInt.tdiv Instant.nanosPerSecond * Instant.nanosPerSecond) ∧
    (∀ text, IsCanonical text → (read? text).map write = some text) ∧
    Set.BijOn write {t | t.IsWhole} {text | IsCanonical text} ∧
    Set.BijOn read? {text | IsCanonical text} (some '' {t | t.IsWhole}) := by
  refine ⟨fun t => ⟨_, read?_write t, Instant.toInt_nanos_truncate t⟩, ?_, bijOn_write, bijOn_read?⟩
  intro text h
  obtain ⟨t, -, hread, hwrite⟩ := h.exists_whole
  rw [hread, Option.map_some, hwrite]

/-- The last second of a leap day before 1970. -/
theorem write_read?_inverse_leapDay :
    let text := "1968-02-29T23:59:59Z"
    IsCanonical text ∧ read? text = some ⟨-57974401000000000⟩ ∧
      (read? text).map write = some text := by
  intro text
  have hrange : Fields.InRange ⟨1968, 2, 29, 23, 59, 59⟩ :=
    ⟨by decide, by decide, by decide, by decide, by decide, by decide⟩
  have hreal : Fields.IsReal ⟨1968, 2, 29, 23, 59, 59⟩ :=
    ⟨⟨by decide, by decide⟩, by decide, by decide, by decide⟩
  have hcanonical : IsCanonical text := ⟨_, hrange.spells, hreal, by decide⟩
  exact ⟨hcanonical, by decide +kernel, write_read?_inverse.2.1 text hcanonical⟩

end Timestamp

end OperatorHealth
