import Sluice.Filter
import Sluice.Time.Rfc3339

/-!
The searches that reads send: a time range, further clauses, an order and aggregations.
-/
namespace Sluice

/-- A half-open range of time. -/
structure TimeRange where
  start : Moment
  stop : Moment

namespace TimeRange

def isEmpty (range : TimeRange) : Bool := range.stop.nanos ≤ range.start.nanos

def format (range : TimeRange) : String :=
  "[" ++ range.start.format ++ ", " ++ range.stop.format ++ ")"

/-- The clause for a field to lie in the range. -/
def clause (range : TimeRange) (timeField : String) : Json :=
  Clause.onField "range" timeField
    (.object [("gte", .text range.start.format), ("lt", .text range.stop.format)])

end TimeRange

/-- The clause for a field to be one instant. -/
def Moment.clause (m : Moment) (timeField : String) : Json :=
  Clause.onField "term" timeField (.text m.format)

inductive Direction where
  | asc | desc
deriving DecidableEq, Repr

def Direction.name : Direction → String
  | .asc => "asc"
  | .desc => "desc"

structure Query where
  start : Nat
  size : Nat
  sort : Option (String × Direction)
  /-- Clauses that must all hold. -/
  clauses : List Json
  /-- The aggregations, if any were ever asked for. -/
  aggregations : Option Members

namespace Query

def empty : Query := ⟨0, 0, none, [], none⟩

/-- Asks for one more clause to hold. -/
def require (query : Query) (clause : Json) : Query :=
  { query with clauses := query.clauses ++ [clause] }

/-- Asks for aggregations; for none of them, what was asked before stands. -/
def aggregate (query : Query) (tree : Members) : Query :=
  if tree.isEmpty then query else { query with aggregations := some tree }

/-- The body of the search. The total it asks for is exact, as paging compares against it. -/
def toJson (query : Query) : Json :=
  let sort := query.sort.map fun (field, direction) => ("sort", Json.object [(field, .object [
    ("order", .text direction.name), ("unmapped_type", .text "date")])])
  let aggregations := query.aggregations.map fun tree => ("aggregations", Json.object tree)
  .object (aggregations.toList ++ [
    ("from", .nat query.start),
    ("query", .object [("filtered", .object [("filter", Clause.all query.clauses)])]),
    ("size", .nat query.size)] ++ sort.toList ++ [("track_total_hits", .bool true)])

end Query
end Sluice
