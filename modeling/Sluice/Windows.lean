import Sluice.Query
import Sluice.Reduction.Rows

/-!
Cutting a time range into windows: ascending boundaries, one width apart and shifted by a phase, the
first not after the start of the range and the last not before its end.
-/
namespace Sluice

/-- Why a range cannot be cut. -/
inductive WindowError where
  | calendarPhase (every : Interval)
  | floor (cause : Interval.FloorError)
  /-- The width leads nowhere from this boundary. -/
  | notAdvancing (every : Interval) (boundary : Moment)
  | outOfYears

namespace WindowError

def floorMessage? : Interval.FloorError → Option String
  | .noWidth every => some ("interval '" ++ every.format ++ "' has no width")
  | .time cause => cause.message?

def message? : WindowError → Option String
  | .calendarPhase every =>
    some ("cannot phase " ++ every.format ++ " buckets by a calendar offset")
  | .floor cause => floorMessage? cause
  | .notAdvancing every boundary =>
    some ("bucket width " ++ every.format ++ " does not advance past " ++ boundary.format)
  | .outOfYears => none

end WindowError

namespace Windows

/-- The boundaries behind `boundary`, up to the first at or past `stop`. -/
def boundariesAfter (every : Interval) (stop boundary : Moment) :
    Except WindowError (List Moment) :=
  if boundary.nanos < stop.nanos then
    match every.advance boundary with
    | .error _ => .error .outOfYears
    | .ok next =>
      if boundary.nanos < next.nanos then
        (boundariesAfter every stop next).map (next :: ·)
      else .error (.notAdvancing every boundary)
  else .ok []
termination_by (stop.nanos - boundary.nanos).toNat

/-- The boundaries of the windows over a range. An empty range has none, and without a width the
whole range is one window. -/
def boundaries (range : TimeRange) (every : Option Interval) (phase : Option Phase) :
    Except WindowError (List Moment) :=
  if range.isEmpty then .ok []
  else match every with
    | none => .ok [range.start, range.stop]
    | some every => do
      let offset ← match phase with
        | none => pure 0
        | some phase =>
          match phase.offsetMillis every with
          | .ok (some offset) => pure offset
          | .ok none => throw (.calendarPhase every)
          | .error _ => throw .outOfYears
      let first ← (every.floor range.start offset).mapError .floor
      return first :: (← boundariesAfter every range.stop first)

/-- The later of two moments, the second if they are one instant. -/
def later (a b : Moment) : Moment := if b.nanos < a.nanos then a else b

/-- The earlier of two moments, the first if they are one instant. -/
def earlier (a b : Moment) : Moment := if b.nanos < a.nanos then b else a

/-- The part of a window that lies in the range. -/
def clip (range : TimeRange) (window : Moment × Moment) : TimeRange :=
  ⟨later window.1 range.start, earlier window.2 range.stop⟩

end Windows
end Sluice
