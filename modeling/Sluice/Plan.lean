import Sluice.Filter
import Sluice.Reduction.Descriptor
import Sluice.Read
import Sluice.Step

/-!
Planning: which steps of a pipeline a read takes over. Steps are taken from the front, as long as
the read can do them and the meaning of the pipeline stays.
-/
namespace Sluice

/-- What a read takes over. -/
structure Plan where
  filter : Option Expr
  pushdown : Pushdown

namespace Plan

def empty : Plan := ⟨none, .none⟩

/-- What planning needs to know of a store. -/
structure Options where
  timeField : String
  sizes : BucketSizes

def Options.standard : Options := ⟨"@timestamp", .standard⟩

def optionsOf (config : Config) : Options := ⟨config.timeField, config.sizes⟩

/-- Whether a reduction is one count at most, of rows, into a field other than the time. -/
def isPlainCount (specs : List ReducerSpec) : Bool :=
  specs.length ≤ 1 &&
    specs.all fun spec => spec.target ≠ timeKey && spec.reducer = .count && spec.argument.isNone

/-- Whether windows of fixed width can stand for a step's windows. -/
def hasFixedWindows (r : Reduce) : Bool :=
  !r.every.any Interval.isCalendar && !r.phase.any Phase.isCalendar && !r.every.any Interval.isEmpty

/-- The descriptor of a reduce step, if a store can run it. -/
def descriptor? (options : Options) (r : Reduce) : Except TimeError (Option Descriptor) := do
  if timeKey ∈ r.groupBy ∨ (r.groupBy ≠ [] ∧ r.forget = some false) then return none
  match r.exprs.mapM ReduceExpr.toSpec? with
  | none => return none
  | some specs =>
    if !isPlainCount specs || !hasFixedWindows r then return none
    let tree ← Tree.ofReduction? r.groupBy specs r.every r.phase options.timeField options.sizes
    return tree.map fun tree => {
      tree
      countField := specs.head?.map (·.target)
      emptyRow := Members.ofList (specs.map fun spec => (spec.target, spec.reducer.identity))
      grouping := r.groupBy
      every := r.every
      phase := r.phase
      emptyFields := [] }

/-- The plan with one more step, if the read can take it over. Filters come before anything else;
limits join limits of their own kind; a reduction stands alone. -/
def push (options : Options) (plan : Plan) (step : Step) : Except TimeError (Option Plan) := do
  match step, plan.pushdown with
  | .filter predicate, .none =>
    match predicate.clause none with
    | .error _ => return none
    | .ok _ =>
      let filter := match plan.filter with
        | some earlier => .binary .and earlier predicate
        | none => predicate
      return some ⟨some filter, .none⟩
  | .head limit, .none => return some ⟨plan.filter, .head limit⟩
  | .head limit, .head earlier => return some ⟨plan.filter, .head (min earlier limit)⟩
  | .tail limit, .none => return some ⟨plan.filter, .tail limit⟩
  | .tail limit, .tail earlier => return some ⟨plan.filter, .tail (min earlier limit)⟩
  | .reduce r, .none => return (← descriptor? options r).map fun d => ⟨plan.filter, .reduce d⟩
  | _, _ => return none

/-- The plan for the longest run of steps from the front, and the steps that remain. -/
def absorb (options : Options) (plan : Plan) :
    List Step → Except TimeError (Plan × List Step)
  | [] => return (plan, [])
  | step :: rest => do
    match ← push options plan step with
    | some plan => absorb options plan rest
    | none => return (plan, step :: rest)

def ofSteps (options : Options) (steps : List Step) : Except TimeError (Plan × List Step) :=
  absorb options .empty steps

def request (plan : Plan) (range : TimeRange) : ReadRequest :=
  ⟨range, plan.filter, plan.pushdown, none⟩

end Plan

/-- A read that has been started for a pipeline, and the steps left to it. -/
structure PlannedRead where
  reading : Reading
  remaining : List Step

/-- Why a pipeline cannot be planned. -/
inductive PlanError where
  | opening (cause : OpenError)
  | time (cause : TimeError)

/-- Gives a read what it can take over of `steps`, and starts it. -/
def planRead (config : Config) (range : TimeRange) (steps : List Step) :
    Except PlanError PlannedRead := do
  let (plan, remaining) ← (Plan.ofSteps (Plan.optionsOf config) steps).mapError .time
  let reading ← (Reading.start? config (plan.request range)).mapError .opening
  return ⟨reading, remaining⟩

end Sluice
