import Mathlib.Algebra.Group.Nat.Defs
import Mathlib.Data.List.TakeWhile
import OperatorHealth.Proofs.Time.Calendar
import OperatorHealth.Time.Timestamp

/-!
# Reading what was written

The text of an instant names the instant without its part of a second. A date and a time of day are
written at full width, so each number is read back from its own digits, and the date and the time of
day of a number of seconds come to that number again.

## Main definitions

* `Timestamp.Fields.InRange`: fields that the layout of a timestamp has room for.

## Main results

* `Timestamp.Fields.seconds_ofSeconds`: the date and the time of day of a number of seconds.
* `Timestamp.fields?_chars`: fields in range are read back.
* `Timestamp.read?_write`: the text of an instant.
-/

namespace OperatorHealth.Timestamp

/-! ### Digits -/

theorem length_digits (width n : Nat) : (digits width n).length = width := by
  induction width generalizing n with
  | zero => rfl
  | succ width ih => rw [digits, List.length_append, ih, List.length_singleton]

theorem isDigit_digitChar {d : Nat} (h : d < 10) : (Nat.digitChar d).isDigit = true := by
  have hall : ∀ d < 10, (Nat.digitChar d).isDigit = true := by decide
  exact hall d h

theorem isDigit_of_mem_digits {width n : Nat} {c : Char} (h : c ∈ digits width n) :
    c.isDigit = true := by
  induction width generalizing n with
  | zero => cases h
  | succ width ih =>
    rw [digits, List.mem_append, List.mem_singleton] at h
    rcases h with h | rfl
    · exact ih h
    · exact isDigit_digitChar (Nat.mod_lt _ (by decide))

theorem decimal_append_singleton (ds : List Char) (c : Char) :
    decimal (ds ++ [c]) = 10 * decimal ds + (c.toNat - '0'.toNat) := by
  rw [decimal, List.foldl_append]
  rfl

/-- A number that fits the width is the value of its digits. -/
theorem decimal_digits {width n : Nat} (h : n < 10 ^ width) : decimal (digits width n) = n := by
  induction width generalizing n with
  | zero =>
    have hzero : n = 0 := by simpa using h
    rw [hzero]
    rfl
  | succ width ih =>
    have hdigit : (Nat.digitChar (n % 10)).toNat - '0'.toNat = n % 10 := by
      rw [Nat.toNat_digitChar_of_lt_ten (Nat.mod_lt _ (by decide))]
      exact Nat.add_sub_cancel_left ..
    rw [digits, decimal_append_singleton, hdigit, ih (by rw [Nat.pow_succ] at h; omega)]
    omega

/-- A number that is written at full width is read back. -/
theorem readNumber?_digits {width lo hi n : Nat} (rest : List Char) (hwidth : 0 < width)
    (hn : n < 10 ^ width) (hlo : lo ≤ n) (hhi : n ≤ hi) :
    readNumber? width lo hi (digits width n ++ rest) = some (n, rest) := by
  have hlength := length_digits width n
  have htake : ((digits width n ++ rest).take width).takeWhile Char.isDigit = digits width n := by
    rw [List.take_left' hlength]
    exact List.takeWhile_eq_self_iff.mpr fun c hc => isDigit_of_mem_digits hc
  have hne : digits width n ≠ [] := by
    intro hnil
    rw [hnil, List.length_nil] at hlength
    omega
  simp only [readNumber?, htake, decimal_digits hn, ne_eq, hne, not_false_eq_true, hlo, hhi,
    and_self, if_true, hlength, List.drop_left' hlength]

/-! ### The layout -/

theorem isBlank_of_isDigit {c : Char} (h : c.isDigit = true) : isBlank c = false := by
  have hrange : 48 ≤ c.toNat ∧ c.toNat ≤ 57 := by
    simpa [Char.isDigit, UInt32.le_iff_toNat_le] using h
  have hspace : c ≠ ' ' := by
    rintro rfl
    exact absurd hrange.1 (by decide)
  simp [isBlank, hspace]
  omega

/-- Digits do not start with a blank. -/
theorem exists_digits_eq_cons {width : Nat} (hwidth : 0 < width) (n : Nat) :
    ∃ c cs, digits width n = c :: cs ∧ isBlank c = false := by
  cases hdigits : digits width n with
  | nil =>
    have hlength := length_digits width n
    rw [hdigits, List.length_nil] at hlength
    omega
  | cons c cs =>
    have hmem : c ∈ digits width n := by rw [hdigits]; exact List.mem_cons_self ..
    exact ⟨c, cs, rfl, isBlank_of_isDigit (isDigit_of_mem_digits hmem)⟩

theorem readFields?_digits {width lo hi n : Nat} {blankBefore : Bool}
    {store : Nat → Fields → Fields} {es : List Element} {m : Char} {rest : List Char} {f : Fields}
    (hwidth : 0 < width) (hn : n < 10 ^ width) (hlo : lo ≤ n) (hhi : n ≤ hi) :
    readFields? (.number width lo hi blankBefore store :: .mark m :: es)
      (digits width n ++ m :: rest) f = readFields? es rest (store n f) := by
  obtain ⟨c, cs, hdigits, hblank⟩ := exists_digits_eq_cons hwidth n
  have hskip : (if blankBefore then skipOneBlank (digits width n ++ m :: rest)
      else digits width n ++ m :: rest) = digits width n ++ m :: rest := by
    rw [hdigits, List.cons_append, skipOneBlank, hblank, if_neg Bool.false_ne_true, ite_self]
  simp only [readFields?, hskip, readNumber?_digits (m :: rest) hwidth hn hlo hhi, if_true]

/-- Fields that the layout of a timestamp has room for. -/
structure Fields.InRange (f : Fields) : Prop where
  year : f.year ≤ 9999
  month : 1 ≤ f.month ∧ f.month ≤ 12
  day : 1 ≤ f.day ∧ f.day ≤ 31
  hour : f.hour ≤ 23
  minute : f.minute ≤ 59
  second : f.second ≤ 60

/-- **Fields in range are read back.** -/
theorem fields?_chars {f : Fields} (h : f.InRange) :
    fields? (String.ofList f.chars) = some f := by
  obtain ⟨c, cs, hdigits, hblank⟩ := exists_digits_eq_cons (by decide : 0 < 4) f.year
  have hstart : f.chars.dropWhile isBlank = f.chars := by
    simp [Fields.chars, hdigits, hblank]
  rw [fields?, String.toList_ofList, hstart]
  simp only [Fields.chars, layout, List.append_assoc, List.cons_append]
  have hyear := h.year
  have hmonth := h.month
  have hday := h.day
  have hhour := h.hour
  have hminute := h.minute
  have hsecond := h.second
  rw [readFields?_digits (by decide) (by omega) (by omega) (by omega),
    readFields?_digits (by decide) (by omega) (by omega) (by omega),
    readFields?_digits (by decide) (by omega) (by omega) (by omega),
    readFields?_digits (by decide) (by omega) (by omega) (by omega),
    readFields?_digits (by decide) (by omega) (by omega) (by omega),
    readFields?_digits (by decide) (by omega) (by omega) (by omega)]
  rfl

/-! ### Seconds -/

/-- The year in which an instant lies. -/
theorem yearOf_seconds_bounds (t : Instant) :
    0 ≤ Date.yearOf (t.seconds / 86400) ∧ Date.yearOf (t.seconds / 86400) ≤ 9999 := by
  have hlow := t.nanos.le_toInt
  have hhigh := t.nanos.toInt_lt
  have hseconds : -9223372037 < t.seconds ∧ t.seconds < 9223372037 := by
    have hsign : Int.sign 1000000000 = 1 := rfl
    simp only [Instant.seconds, Instant.nanosPerSecond, Int.tdiv_eq_ediv, hsign]
    split <;> omega
  obtain ⟨hle, hlt⟩ := Date.yearOf_bounds (t.seconds / 86400)
  have hstart := Date.yearStart_bounds (Date.yearOf (t.seconds / 86400))
  have hend := Date.yearStart_bounds (Date.yearOf (t.seconds / 86400) + 1)
  omega

theorem inRange_ofSeconds (t : Instant) : (Fields.ofSeconds t.seconds).InRange := by
  have hyear := yearOf_seconds_bounds t
  obtain ⟨hmonth, hday⟩ := Date.ofDayNumber_bounds (t.seconds / 86400)
  have hclock : (t.seconds % 86400).toNat < 86400 := by omega
  refine ⟨?_, hmonth, hday, ?_, ?_, ?_⟩
  · have hdate :
        (Date.ofDayNumber (t.seconds / 86400)).year = Date.yearOf (t.seconds / 86400) := rfl
    simp only [Fields.ofSeconds, hdate]
    omega
  all_goals simp only [Fields.ofSeconds]; omega

/-- The date and the time of day of a number of seconds come to that number. -/
theorem Fields.seconds_ofSeconds {s : Int} (h : 0 ≤ Date.yearOf (s / 86400)) :
    (Fields.ofSeconds s).seconds = s := by
  have hdate : Date.mk (Date.ofDayNumber (s / 86400)).year.toNat
      (Date.ofDayNumber (s / 86400)).month (Date.ofDayNumber (s / 86400)).day =
        Date.ofDayNumber (s / 86400) := by
    have hyear : (Date.ofDayNumber (s / 86400)).year.toNat =
        (Date.ofDayNumber (s / 86400)).year := Int.toNat_of_nonneg h
    rw [hyear]
  simp only [Fields.seconds, Fields.ofSeconds, hdate, Date.dayNumber_ofDayNumber]
  omega

/-- **The text of an instant names the instant without its part of a second.** -/
theorem read?_write (t : Instant) : read? (write t) = some t.truncate := by
  rw [read?, write, fields?_chars (inRange_ofSeconds t), Option.map_some,
    Fields.seconds_ofSeconds (yearOf_seconds_bounds t).1]
  rfl

end OperatorHealth.Timestamp
