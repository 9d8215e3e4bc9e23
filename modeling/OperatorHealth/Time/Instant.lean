/-!
# Instants

A point in time is a count of nanoseconds since 1 January 1970, 00:00:00 UTC, held in a signed
64-bit word. The count `0` doubles as the mark of a time that was never set.

## Main definitions

* `Instant`: a point in time.
* `Instant.seconds`: its whole seconds, the rest dropped toward zero.
* `Instant.truncate`: the instant with its part of a second dropped.
-/

namespace OperatorHealth

/-- A point in time, in nanoseconds since the start of 1970. -/
structure Instant where
  nanos : Int64
  deriving DecidableEq, Repr, Inhabited

namespace Instant

/-- The time that was never set. -/
def unset : Instant := ⟨0⟩

/-- Whether a time was never set. -/
def isUnset (t : Instant) : Bool := t == unset

/-- The nanoseconds of one second. -/
def nanosPerSecond : Int := 1000000000

/-- Whole seconds since the start of 1970, the rest dropped toward zero. -/
def seconds (t : Instant) : Int := t.nanos.toInt.tdiv nanosPerSecond

/-- The instant a number of seconds after the start of 1970. A number whose nanoseconds do not fit
the word wraps around it. -/
def ofSeconds (s : Int) : Instant := ⟨Int64.ofInt (s * nanosPerSecond)⟩

/-- The instant with its part of a second dropped toward zero. -/
def truncate (t : Instant) : Instant := ofSeconds t.seconds

end Instant

end OperatorHealth
