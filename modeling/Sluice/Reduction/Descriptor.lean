import Sluice.Reduction.Tree

/-!
All that is needed to run a reduction inside a store, window by window.
-/
namespace Sluice

structure Descriptor where
  tree : Members
  /-- The field that gets the number of documents of each bucket. -/
  countField : Option String
  /-- The row of a window without documents. -/
  emptyRow : Members
  grouping : List String
  every : Option Interval
  phase : Option Phase
  /-- Group fields that the store does not know, which are null on every row. -/
  emptyFields : List String

namespace Descriptor

def isGrouped (d : Descriptor) : Bool := !d.grouping.isEmpty

/-- The descriptor without a group field, whose value is null from now on; `none` if the field is
not grouped by. -/
def removeField? (d : Descriptor) (field : String) (sizes : BucketSizes) : Option Descriptor :=
  if field ∈ d.grouping then
    let grouping := d.grouping.filter (· ≠ field)
    some { d with
      tree := Tree.grouped grouping (Tree.ungrouped d.tree d.grouping) sizes
      grouping
      emptyFields := if field ∈ d.emptyFields then d.emptyFields else d.emptyFields ++ [field] }
  else none

theorem length_grouping_of_removeField? {d d' : Descriptor} {field : String} {sizes : BucketSizes}
    (h : d.removeField? field sizes = some d') : d'.grouping.length < d.grouping.length := by
  simp only [removeField?] at h
  split at h
  · rename_i hmem
    simp only [Option.some.injEq] at h
    subst h
    exact List.length_filter_lt_length_iff_exists.2 ⟨field, hmem, by simp⟩
  · cases h

end Descriptor

/-- What of a pipeline a read does itself. -/
inductive Pushdown where
  | none
  | head (limit : Nat)
  | tail (limit : Nat)
  | reduce (descriptor : Descriptor)

def Pushdown.format : Pushdown → String
  | .none => "none"
  | .head limit => "head(" ++ toString limit ++ ")"
  | .tail limit => "tail(" ++ toString limit ++ ")"
  | .reduce d =>
    "reduce(by=[" ++ ", ".intercalate d.grouping ++ "]" ++
      (d.every.elim "" fun every => ", every=" ++ every.format) ++
      ", aggs=" ++ (Json.object d.tree).render ++ ")"

end Sluice
