import Sluice.Time.Duration
import Sluice.Time.Moment

/-!
Bucket widths and their phase. A width is a number of milliseconds, or of calendar months.
-/
namespace Sluice

inductive Interval where
  | millis (n : Int)
  | months (n : Nat)
deriving DecidableEq

/-- Why a text is no interval. -/
inductive IntervalError where
  | empty (text : String)
  | malformed (cause : Duration.MillisError)
deriving DecidableEq

def IntervalError.message : IntervalError → String
  | .empty text => "interval '" ++ text ++ "' must not be empty"
  | .malformed cause => cause.message

namespace Interval

def isCalendar : Interval → Bool
  | .months _ => true
  | .millis _ => false

/-- Whether the interval has no width. The reader refuses such intervals, but they can be built. -/
def isEmpty : Interval → Bool
  | .millis n => n ≤ 0
  | .months n => n = 0

def millis? : Interval → Option Int
  | .millis n => some n
  | .months _ => none

/-- The store's own name for a calendar width, where it has one. -/
def calendarName? : Interval → Option String
  | .months 1 => some "month"
  | .months 12 => some "year"
  | _ => none

/-! ## Text -/

/-- Whole years as years, other months as months, milliseconds as a duration. A negative number of
milliseconds is shown as the unsigned word with the same bits. -/
def format : Interval → String
  | .millis n => Duration.format (Word.wrapUnsigned n * 1000000)
  | .months n => if n % 12 = 0 then toString (n / 12) ++ "y" else toString n ++ "M"

/-- The months that a count of a calendar unit stands for, if they fit 32 bits. -/
def monthsOf? (count : Nat) (unit : String) : Option Nat :=
  if unit ∈ ["M", "mo", "month", "months"] then some count
  else if unit ∈ ["y", "Y", "year", "years"] then
    if count * 12 < 0x100000000 then some (count * 12) else none
  else none

/-- The months that a text stands for, if it is one count and a calendar unit. -/
def calendarMonths? (cs : List Char) : Option Nat :=
  let digits := cs.takeWhile Char.isDigit
  let count := Nat.ofDigitChars 10 digits 0
  if digits = [] ∨ 0x100000000 ≤ count then none
  else monthsOf? count (String.ofList (Text.trim (cs.dropWhile Char.isDigit)))

/-- Reads a count of months or years, else a duration. Blanks around the text do not count. -/
def parse (s : String) : Except IntervalError Interval :=
  let cs := Text.trim s.toList
  let text := String.ofList cs
  match calendarMonths? cs with
  | some 0 => .error (.empty text)
  | some n => .ok (.months n)
  | none =>
    match Duration.parseMillis text with
    | .error cause => .error (.malformed cause)
    | .ok 0 => .error (.empty text)
    | .ok n => .ok (.millis n)

/-! ## Flooring and advancing -/

inductive FloorError where
  | noWidth (interval : Interval)
  | time (cause : TimeError)
deriving DecidableEq

/-- The start of the interval around `m`, where the starts are shifted by `offset` milliseconds. -/
def floor (every : Interval) (m : Moment) (offset : Int) : Except FloorError Moment :=
  if every.isEmpty then .error (.noWidth every)
  else match every with
    | .millis width =>
      match Moment.floorMillis? m.toMillis width offset with
      | none => .error (.noWidth every)
      | some start => (Moment.ofMillis start).mapError .time
    | .months count => do
      let shift := offset * Moment.nanosPerMilli
      let shifted ← (m.later (-shift)).mapError .time
      let start ← (shifted.floorMonths count).mapError .time
      (start.later shift).mapError .time

/-- The moment one interval on. -/
def advance (every : Interval) (m : Moment) : Except TimeError Moment :=
  match every with
  | .millis width => m.later (width * Moment.nanosPerMilli)
  | .months count => m.addMonths count

end Interval

/-- Where the boundaries of buckets lie: shifted by an offset, or running through a moment. -/
inductive Phase where
  | offset (shift : Interval)
  | moment (instant : Moment)

namespace Phase

def isCalendar : Phase → Bool
  | .offset interval => interval.isCalendar
  | .moment _ => false

/-- The shift of the boundaries of buckets of width `every`, in milliseconds. A moment is taken by
its distance from the start of its own bucket. There is none for a calendar offset, nor where that
start cannot be had; leaving the supported years is an error. -/
def offsetMillis (phase : Phase) (every : Interval) : Except TimeError (Option Int) :=
  match phase with
  | .offset interval => .ok interval.millis?
  | .moment m =>
    match every.floor m 0 with
    | .ok start => .ok (some (m.toMillis - start.toMillis))
    | .error (.time .outOfYears) => .error .outOfYears
    | .error _ => .ok none

end Phase
end Sluice
