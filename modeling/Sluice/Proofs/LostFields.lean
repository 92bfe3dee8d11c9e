import Sluice.Aggregator

/-!
Fields that a reduction loses because the store does not know them. One that is lost is not grouped
by any more, so that losing it again changes nothing.
-/
namespace Sluice

namespace Descriptor

variable {d : Descriptor} {sizes : BucketSizes} {field other : String} {fields : List String}

/-- The descriptor without a field, if it is grouped by it and has not lost it yet. -/
def drop (sizes : BucketSizes) (d : Descriptor) (field : String) : Descriptor :=
  if field ∈ d.emptyFields then d else (d.removeField? field sizes).getD d

/-- The descriptor without fields, one dropped after the other. -/
def without (sizes : BucketSizes) (d : Descriptor) (fields : List String) : Descriptor :=
  fields.foldl (drop sizes) d

/-- Whether there is nothing to drop of a field. -/
def Lacks (d : Descriptor) (field : String) : Prop := field ∈ d.emptyFields ∨ field ∉ d.grouping

theorem drop_of_lacks (h : d.Lacks field) : d.drop sizes field = d := by
  unfold drop removeField?
  rcases h with h | h
  · rw [if_pos h]
  · rw [if_neg h]
    exact ite_self d

theorem lacks_drop (sizes : BucketSizes) (d : Descriptor) (field : String) :
    (d.drop sizes field).Lacks field := by
  unfold drop removeField?
  split
  · rename_i h
    exact .inl h
  · split
    · exact .inr (by simp)
    · rename_i h
      exact .inr h

theorem Lacks.drop (h : d.Lacks field) (sizes : BucketSizes) (other : String) :
    (d.drop sizes other).Lacks field := by
  unfold Descriptor.drop removeField?
  split
  · exact h
  · split
    · rcases h with h | h
      · exact .inl (by simp [h])
      · exact .inr (by simp [h])
    · exact h

theorem Lacks.without (h : d.Lacks field) (sizes : BucketSizes) (fields : List String) :
    (d.without sizes fields).Lacks field := by
  induction fields generalizing d with
  | nil => exact h
  | cons other fields ih => exact ih (h.drop sizes other)

theorem lacks_without (sizes : BucketSizes) (d : Descriptor) :
    ∀ field ∈ fields, (d.without sizes fields).Lacks field := by
  induction fields generalizing d with
  | nil => exact fun _ h => nomatch h
  | cons other fields ih =>
      intro field hfield
      rcases List.mem_cons.mp hfield with rfl | hfield
      · exact (lacks_drop sizes d field).without sizes fields
      · exact ih (d.drop sizes other) field hfield

theorem without_of_lacks (h : ∀ field ∈ fields, d.Lacks field) : d.without sizes fields = d := by
  induction fields with
  | nil => rfl
  | cons field fields ih =>
      rw [without, List.foldl_cons, drop_of_lacks (h field List.mem_cons_self)]
      exact ih fun other hother => h other (List.mem_cons_of_mem field hother)

theorem without_without (sizes : BucketSizes) (d : Descriptor) (fields : List String) :
    (d.without sizes fields).without sizes fields = d.without sizes fields :=
  without_of_lacks (lacks_without sizes d)

theorem without_self (sizes : BucketSizes) (d : Descriptor) : d.without sizes d.emptyFields = d :=
  without_of_lacks fun _ h => .inl h

theorem mem_emptyFields_without (sizes : BucketSizes) (fields : List String)
    (h : field ∈ d.emptyFields) : field ∈ (d.without sizes fields).emptyFields := by
  induction fields generalizing d with
  | nil => exact h
  | cons other fields ih =>
      refine ih ?_
      unfold drop removeField?
      split
      · exact h
      · split
        · simp [h]
        · exact h

end Descriptor

namespace Aggregator

theorem dropFields_eq (a : Aggregator) (used : Descriptor) :
    a.dropFields used =
      { a with descriptor := a.descriptor.without a.options.sizes used.emptyFields } := by
  rw [dropFields, Descriptor.without]
  generalize used.emptyFields = fields
  induction fields generalizing a with
  | nil => rfl
  | cons field fields ih =>
      rw [List.foldl_cons, List.foldl_cons, Descriptor.drop]
      split
      · exact ih a
      · cases a.descriptor.removeField? field a.options.sizes with
        | none => exact ih a
        | some fewer => exact ih { a with descriptor := fewer }

end Aggregator
end Sluice
