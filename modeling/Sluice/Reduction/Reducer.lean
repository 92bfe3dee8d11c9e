import Sluice.Expr
import Sluice.Time.Interval

/-!
Reductions of rows: what a reduce step computes, over which groups and windows.
-/
namespace Sluice

/-- The reducers that a store can compute. -/
inductive Reducer where
  | avg | count | countUnique | max | min | sum
deriving DecidableEq, Repr

namespace Reducer

def name : Reducer → String
  | .avg => "avg"
  | .count => "count"
  | .countUnique => "count_unique"
  | .max => "max"
  | .min => "min"
  | .sum => "sum"

def all : List Reducer := [.avg, .count, .countUnique, .max, .min, .sum]

def ofName? (name : String) : Option Reducer := all.find? (·.name = name)

def unknownMessage (name : String) : String := "reducer '" ++ name ++ "' has no store equivalent"

/-- What a reducer gives over no rows. -/
def identity : Reducer → Json
  | .count | .countUnique | .sum => .nat 0
  | .avg | .max | .min => .null

/-- The store's name for the aggregation that computes a reducer. -/
def aggregationName : Reducer → String
  | .avg => "avg"
  | .count => "value_count"
  | .countUnique => "cardinality"
  | .max => "max"
  | .min => "min"
  | .sum => "sum"

end Reducer

/-- A reducer over a field of the rows, or over the rows themselves. -/
structure ReducerSpec where
  target : String
  reducer : Reducer
  argument : Option String
deriving DecidableEq

/-- An assignment of a reduce step, as the pipeline writes it. -/
structure ReduceExpr where
  target : Expr
  reducer : String
  args : List Expr

namespace ReduceExpr

/-- The assignment as a reducer, if it has the shape `field = reducer(field?)`. -/
def toSpec? (e : ReduceExpr) : Option ReducerSpec := do
  let target ← e.target.field?
  let reducer ← Reducer.ofName? e.reducer
  match e.args with
  | [] => return ⟨target, reducer, none⟩
  | [arg] => return ⟨target, reducer, some (← arg.field?)⟩
  | _ => none

def format (e : ReduceExpr) : String :=
  e.target.format ++ " = " ++ e.reducer ++ "(" ++ ", ".intercalate (e.args.map Expr.format) ++ ")"

def toJson (e : ReduceExpr) : Json :=
  .object [("args", .list (e.args.map Expr.toJson)), ("reducer", .text e.reducer),
    ("target", e.target.toJson)]

end ReduceExpr

/-- A reduce step. -/
structure Reduce where
  exprs : List ReduceExpr
  groupBy : List String
  every : Option Interval
  phase : Option Phase
  /-- Whether groups of earlier windows are forgotten; missing where the step leaves it open. -/
  forget : Option Bool

namespace Reduce

def format (r : Reduce) : String :=
  "reduce" ++
    (r.every.elim "" fun every => " -every " ++ every.format) ++
    (r.forget.elim "" fun forget => " -forget " ++ if forget then "true" else "false") ++
    (if r.exprs.isEmpty then "" else " " ++ ", ".intercalate (r.exprs.map ReduceExpr.format)) ++
    (if r.groupBy.isEmpty then "" else " by " ++ ", ".intercalate r.groupBy)

end Reduce
end Sluice
