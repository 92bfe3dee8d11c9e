import Sluice.Reduction.Reducer
import Sluice.Row

/-!
The aggregation trees sent to a store: one level of buckets per group field around an optional level
of time buckets, around the reducers. A tree is JSON: nodes by name, each with the nodes below it.
-/
namespace Sluice

/-- How many buckets a level may keep; trees that count distinct values get the smaller number. -/
structure BucketSizes where
  cardinality : Nat
  default : Nat
deriving DecidableEq, Repr

def BucketSizes.standard : BucketSizes := ⟨10000, 1000000⟩

namespace Tree

/-- Where the nodes below a node stand. -/
def subKey : String := "aggregations"

mutual

/-- Whether some node of a tree, at any depth, has a property. -/
def anyNode (p : String → Json → Bool) : List (String × Json) → Bool
  | [] => false
  | (name, node) :: rest => p name node || anyBelow p node || anyNode p rest

def anyBelow (p : String → Json → Bool) : Json → Bool
  | .object members => anyUnder p members
  | _ => false

def anyUnder (p : String → Json → Bool) : List (String × Json) → Bool
  | [] => false
  | (k, .object sub) :: rest => if k = subKey then anyNode p sub else anyUnder p rest
  | (k, _) :: rest => if k = subKey then false else anyUnder p rest

end

def countsDistinct (tree : Members) : Bool :=
  anyNode (fun _ node => (node.member? "cardinality").isSome) tree

/-- Whether the tree has a level of time buckets. -/
def hasHistogram (tree : Members) : Bool :=
  anyNode (fun name node => name = timeKey && (node.member? "date_histogram").isSome) tree

/-! ## Building -/

/-- The node that computes a reducer over a field. -/
def reducerNode (reducer : Reducer) (field : String) : Json :=
  .object [(reducer.aggregationName, .object [("field", .text field)])]

/-- A node with the tree below it, which is left out if empty. -/
def withSub (node : Members) (sub : Members) : Json :=
  .object (if sub.isEmpty then node else Members.insert subKey (.object sub) node)

/-- The size of the buckets around a tree. -/
def bucketSize (sub : Members) (sizes : BucketSizes) : Nat :=
  if countsDistinct sub then sizes.cardinality else sizes.default

/-- The tree with one level of buckets around it. -/
def groupLevel (size : Nat) (field : String) (sub : Members) : Members :=
  [(field, withSub [("terms", .object [("field", .text field), ("size", .nat size)])] sub)]

/-- The tree with a level of buckets per group field around it, the first field outermost. -/
def grouped (grouping : List String) (sub : Members) (sizes : BucketSizes) : Members :=
  grouping.foldr (groupLevel (bucketSize sub sizes)) sub

/-- The tree with a level of time buckets around it; `none` when the store has no buckets of that
width or phase. -/
def histogram? (timeField : String) (every : Interval) (phase : Option Phase) (sub : Members) :
    Except TimeError (Option Members) := do
  let width : Option (String × Json) := match every with
    | .millis n => some ("fixed_interval", .text (toString n ++ "ms"))
    | .months _ => every.calendarName?.map fun name => ("calendar_interval", .text name)
  match width with
  | none => return none
  | some (key, width) =>
    let offset ← match phase with
      | none => pure (some 0)
      | some phase => if phase.isCalendar then pure none else phase.offsetMillis every
    match offset with
    | none => return none
    | some offset =>
      let shift := if offset = 0 then [] else [("offset", Json.text (toString offset ++ "ms"))]
      let body := [("field", Json.text timeField), (key, width), ("min_doc_count", .nat 0)] ++ shift
      return some [(timeKey, withSub [("date_histogram", .ofBindings body)] sub)]

/-- The nodes of reducers; counts of rows need none. Another reducer without a field has no node. -/
def leaves? : List ReducerSpec → Members → Option Members
  | [], tree => some tree
  | spec :: rest, tree =>
    match spec.argument with
    | some field => leaves? rest (Members.insert spec.target (reducerNode spec.reducer field) tree)
    | none => if spec.reducer = .count then leaves? rest tree else none

/-- The whole tree of a reduction. -/
def ofReduction? (grouping : List String) (specs : List ReducerSpec) (every : Option Interval)
    (phase : Option Phase) (timeField : String) (sizes : BucketSizes) :
    Except TimeError (Option Members) := do
  match leaves? specs [] with
  | none => return none
  | some leaves =>
    let leaf ← match every with
      | none => pure (some leaves)
      | some every => histogram? timeField every phase leaves
    return leaf.map (grouped grouping · sizes)

/-! ## Taking apart -/

/-- What stands inside the buckets of all group fields; nothing if the tree has no such levels. -/
def ungrouped (tree : Members) : List String → Members
  | [] => tree
  | field :: rest =>
    match ((Members.get? field tree).bind (·.member? subKey)).bind Json.object? with
    | some sub => ungrouped sub rest
    | none => []

end Tree
end Sluice
