import Sluice.Reduction.Reducer
import Sluice.Time.Rfc3339

/-!
The steps of a pipeline behind a read.
-/
namespace Sluice

inductive Step where
  | head (limit : Nat)
  | tail (limit : Nat)
  | reduce (reduce : Reduce)
  | filter (predicate : Expr)
  /-- A step that no store runs. -/
  | other (name : String)

namespace Step

def format : Step → String
  | .head limit => "head " ++ toString limit
  | .tail limit => "tail " ++ toString limit
  | .reduce r => r.format
  | .filter predicate => "filter " ++ predicate.format
  | .other name => name

end Step

def Phase.toJson : Phase → Json
  | .offset shift => .object [("offset", .text shift.format)]
  | .moment instant => .object [("moment", .text instant.format)]

def Reduce.toJson (r : Reduce) : Json :=
  .object [
    ("every", .optional (fun every => .text every.format) r.every),
    ("exprs", .list (r.exprs.map ReduceExpr.toJson)), ("forget", .optional .bool r.forget),
    ("groupby", .texts r.groupBy), ("on", .optional Phase.toJson r.phase)]

def Step.toJson : Step → Json
  | .head limit => .object [("head", .nat limit)]
  | .tail limit => .object [("tail", .nat limit)]
  | .reduce r => .object [("reduce", r.toJson)]
  | .filter predicate => .object [("filter", predicate.toJson)]
  | .other name => .object [("other", .text name)]

end Sluice
