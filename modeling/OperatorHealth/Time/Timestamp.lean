import OperatorHealth.Text.Blank
import OperatorHealth.Time.Calendar
import OperatorHealth.Time.Instant

/-!
# Timestamps

The text of an instant, such as `2026-10-19T18:46:00Z`: UTC, to the second. Writing always gives
all six numbers at full width. Reading is more generous:

* blanks before the text are skipped, and one blank may stand before the day;
* a number may have fewer digits than its width, but must lie in its range;
* the letters may stand in either case;
* the text may end after any number: a month left out is January, a day left out is day `0`, the
  day before the first, and the time of day left out is midnight;
* what follows the closing `Z` is ignored.

A day past the end of its month and a second `60` carry over.

## Main definitions

* `Timestamp.write`: the text of an instant.
* `Timestamp.read?`: the instant a text names.
-/

namespace OperatorHealth.Timestamp

/-! ### Writing -/

/-- The last `width` decimal digits of a number, zeros in front. -/
def digits : Nat → Nat → List Char
  | 0, _ => []
  | width + 1, n => digits width (n / 10) ++ [Nat.digitChar (n % 10)]

/-- A date and a time of day. -/
structure Fields where
  year : Nat
  month : Nat := 1
  day : Nat := 0
  hour : Nat := 0
  minute : Nat := 0
  second : Nat := 0
  deriving DecidableEq, Repr

/-- The date and time of day a number of seconds after the start of 1970. -/
def Fields.ofSeconds (s : Int) : Fields :=
  let date := Date.ofDayNumber (s / 86400)
  let clock := (s % 86400).toNat
  { year := date.year.toNat, month := date.month, day := date.day
    hour := clock / 3600, minute := clock / 60 % 60, second := clock % 60 }

/-- The seconds from the start of 1970 to a date and time of day, linear in the day, the hour, the
minute and the second. -/
def Fields.seconds (f : Fields) : Int :=
  (Date.mk f.year f.month f.day).dayNumber * 86400 + f.hour * 3600 + f.minute * 60 + f.second

/-- The characters of a date and time of day. -/
def Fields.chars (f : Fields) : List Char :=
  digits 4 f.year ++ '-' :: digits 2 f.month ++ '-' :: digits 2 f.day ++ 'T' :: digits 2 f.hour ++
    ':' :: digits 2 f.minute ++ ':' :: digits 2 f.second ++ ['Z']

/-- The text of an instant, its part of a second dropped toward zero. -/
def write (t : Instant) : String := String.ofList (Fields.ofSeconds t.seconds).chars

/-! ### Reading -/

/-- One element of the layout of a timestamp. -/
inductive Element
  /-- A number of at most `width` digits between `lo` and `hi`, stored by `store`. -/
  | number (width lo hi : Nat) (blankBefore : Bool) (store : Nat → Fields → Fields)
  /-- A character that has to stand here, a letter in either case. -/
  | mark (c : Char)

/-- The layout of a timestamp. -/
def layout : List Element :=
  [ .number 4 0 9999 false fun n f => { f with year := n }, .mark '-',
    .number 2 1 12 false fun n f => { f with month := n }, .mark '-',
    .number 2 1 31 true fun n f => { f with day := n }, .mark 'T',
    .number 2 0 23 false fun n f => { f with hour := n }, .mark ':',
    .number 2 0 59 false fun n f => { f with minute := n }, .mark ':',
    .number 2 0 60 false fun n f => { f with second := n }, .mark 'Z' ]

/-- The value of a list of decimal digits. -/
def decimal (ds : List Char) : Nat :=
  ds.foldl (fun n c => 10 * n + (c.toNat - '0'.toNat)) 0

/-- The number at the front of a text and the text after it: one to `width` digits with a value
between `lo` and `hi`. -/
def readNumber? (width lo hi : Nat) (cs : List Char) : Option (Nat × List Char) :=
  let ds := (cs.take width).takeWhile Char.isDigit
  let n := decimal ds
  if ds ≠ [] ∧ lo ≤ n ∧ n ≤ hi then some (n, cs.drop ds.length) else none

/-- The text without the blank it may start with. -/
def skipOneBlank : List Char → List Char
  | [] => []
  | c :: cs => if isBlank c then cs else c :: cs

/-- The fields of a text laid out as listed. The text may end after any number. -/
def readFields? : List Element → List Char → Fields → Option Fields
  | [], _, f => some f
  | .number width lo hi blankBefore store :: es, cs, f =>
    match readNumber? width lo hi (if blankBefore then skipOneBlank cs else cs) with
    | none => none
    | some (n, []) => some (store n f)
    | some (n, c :: rest) => readFields? es (c :: rest) (store n f)
  | .mark _ :: _, [], _ => none
  | .mark m :: es, c :: rest, f => if c.toLower = m.toLower then readFields? es rest f else none

/-- The date and time of day that a text names. -/
def fields? (text : String) : Option Fields :=
  readFields? layout (text.toList.dropWhile isBlank) { year := 0 }

/-- The instant that a text names. -/
def read? (text : String) : Option Instant :=
  (fields? text).map fun f => Instant.ofSeconds f.seconds

end OperatorHealth.Timestamp
