import Sluice.Json.Basic

/-!
The rows that reads emit, in batches.
-/
namespace Sluice

/-- The name of the time on every emitted row, whatever the store calls it. -/
def timeKey : String := "time"

structure Row where
  log : Members
  /-- The row's time is the end of a window and not that of a point. -/
  epsilon : Bool

/-- The time of a row. -/
def Row.time? (row : Row) : Option Json := Members.get? timeKey row.log

def Row.toJson (row : Row) : Json :=
  .object [("epsilon", .bool row.epsilon), ("log", .object row.log)]

structure Batch where
  rows : List Row
  /-- Nothing follows. -/
  eof : Bool

end Sluice
