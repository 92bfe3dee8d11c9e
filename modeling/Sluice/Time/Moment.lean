import Sluice.Time.Calendar
import Sluice.Number.Word

/-!
Moments: instants, counted in nanoseconds from the start of 1970 in UTC, together with the offset of
the local time they are written in. Moments are compared as instants. The local year of every moment
lies in -9999 to 9999, and arithmetic that would leave it fails.
-/
namespace Sluice

structure Moment where
  /-- Nanoseconds since the start of 1970 in UTC. -/
  nanos : Int
  /-- Minutes by which the local time is ahead of UTC. -/
  offset : Int
deriving DecidableEq

/-- Why a time cannot be had. -/
inductive TimeError where
  /-- A step of arithmetic left the supported years. -/
  | outOfYears
  /-- Periods of no months have no starts. -/
  | emptyPeriod
  | millisOutOfRange (millis : Int)
deriving DecidableEq

namespace Moment

def nanosPerMilli : Int := 1000000
def nanosPerSecond : Int := 1000000000
def nanosPerMinute : Int := 60 * nanosPerSecond
def nanosPerDay : Int := 86400 * nanosPerSecond

def utc (nanos : Int) : Moment := ⟨nanos, 0⟩

def epoch : Moment := utc 0

/-! ## Local time -/

/-- The local time as if it were UTC. -/
def localNanos (m : Moment) : Int := m.nanos + m.offset * nanosPerMinute

def localDate (m : Moment) : Calendar.Date :=
  .ofDays (m.localNanos / nanosPerDay + Calendar.epochDay)

/-- Nanoseconds since the local midnight. -/
def timeOfDay (m : Moment) : Int := m.localNanos % nanosPerDay

/-- The first and the last supported local nanosecond: the ends of years -9999 and 9999. -/
def leastNanos : Int := -377705116800 * nanosPerSecond
def greatestNanos : Int := 253402300800 * nanosPerSecond - 1

def inYears (m : Moment) : Bool := leastNanos ≤ m.localNanos && m.localNanos ≤ greatestNanos

/-- The moment, if its local year is supported. -/
def checked (m : Moment) : Except TimeError Moment :=
  if m.inYears then .ok m else .error .outOfYears

/-- The same instant in UTC. -/
def toUtc (m : Moment) : Except TimeError Moment := (utc m.nanos).checked

/-- The moment `nanos` later, at the same offset. -/
def later (m : Moment) (nanos : Int) : Except TimeError Moment :=
  checked ⟨m.nanos + nanos, m.offset⟩

/-! ## Milliseconds and seconds -/

/-- Whole milliseconds since the epoch, toward zero. -/
def toMillis (m : Moment) : Int := m.nanos.tdiv nanosPerMilli

/-- Whole seconds since the epoch, downward. -/
def toSeconds (m : Moment) : Int := m.nanos / nanosPerSecond

def ofMillis (millis : Int) : Except TimeError Moment :=
  let m := utc (millis * nanosPerMilli)
  if m.inYears then .ok m else .error (.millisOutOfRange millis)

/-- The moment without what its local second holds below the millisecond. -/
def truncateMillis (m : Moment) : Moment :=
  { m with nanos := m.nanos - m.localNanos % nanosPerSecond % nanosPerMilli }

/-- The greatest `offset + k * width` that is not above `millis`, in wrapping 64-bit arithmetic;
`none` when the division has no result. -/
def floorMillis? (millis width offset : Int) : Option Int :=
  let shifted := Word.wrapSigned (millis - offset)
  if width = 0 ∨ (width = -1 ∧ shifted = -Word.signedLimit) then none
  else some (Word.wrapSigned (Word.wrapSigned (shifted / width * width) + offset))

/-! ## Calendar months -/

/-- Midnight UTC on the first day of a month counted from year 0; the epoch when that year is not
supported. -/
def monthStart (months : Int) : Moment :=
  let first := Calendar.Date.firstOfMonth months
  if -9999 ≤ first.year ∧ first.year ≤ 9999 then
    utc ((first.toDays - Calendar.epochDay) * nanosPerDay)
  else epoch

/-- The start of the period of `months` months around the moment; periods are counted from
year 0. -/
def floorMonths (m : Moment) (months : Nat) : Except TimeError Moment := do
  let m ← m.toUtc
  if months = 0 then throw .emptyPeriod
  return monthStart (m.localDate.toMonths / months * months)

/-- The moment at the same distance from the start of its month, `months` months on. -/
def addMonths (m : Moment) (months : Nat) : Except TimeError Moment := do
  let m ← m.toUtc
  let month := m.localDate.toMonths
  (monthStart (month + months)).later (m.nanos - (monthStart month).nanos)

end Moment
end Sluice
