import Sluice.Proofs.Levels

/-!
Sequences of removals. What is left of a descriptor is what would have been built without the fields
that were removed, in whatever order they went.
-/
namespace Sluice.Descriptor

variable {d fewer : Descriptor} {leaf : Members} {sizes : BucketSizes} {field : String}

/-- The tree of a descriptor is built around `leaf`. -/
def Around (d : Descriptor) (leaf : Members) (sizes : BucketSizes) : Prop :=
  d.tree = Tree.grouped d.grouping leaf sizes

theorem Around.ungrouped (h : d.Around leaf sizes) : Tree.ungrouped d.tree d.grouping = leaf := by
  rw [h, Tree.grouped, Tree.ungrouped_groups]

theorem removeField?_eq_some (h : d.Around leaf sizes) (hfield : field ∈ d.grouping) :
    d.removeField? field sizes = some { d with
      tree := Tree.grouped (d.grouping.filter (· ≠ field)) leaf sizes
      grouping := d.grouping.filter (· ≠ field)
      emptyFields := if field ∈ d.emptyFields then d.emptyFields else d.emptyFields ++ [field] } := by
  rw [removeField?, if_pos hfield, h.ungrouped]

theorem removeField?_eq_none (hfield : field ∉ d.grouping) : d.removeField? field sizes = none :=
  if_neg hfield

/-- A sequence of removals, of which those that fail change nothing: the fields that were removed, in
that order, and the descriptor behind them. -/
def removeFields (sizes : BucketSizes) (d : Descriptor) : List String → List String × Descriptor
  | [] => ([], d)
  | field :: fields =>
    match d.removeField? field sizes with
    | none => removeFields sizes d fields
    | some fewer =>
      let (removed, behind) := removeFields sizes fewer fields
      (field :: removed, behind)

/-- A field is removed once if it is grouped by and asked for, and never otherwise. -/
theorem removed_removeFields (sizes : BucketSizes) (d : Descriptor) (fields : List String) :
    (d.removeFields sizes fields).1.Nodup ∧
      ∀ field, field ∈ (d.removeFields sizes fields).1 ↔ field ∈ fields ∧ field ∈ d.grouping := by
  induction fields generalizing d with
  | nil => simp [removeFields]
  | cons asked fields ih =>
      by_cases hasked : asked ∈ d.grouping
      · obtain ⟨fewer, hfewer, hgrouping⟩ : ∃ fewer, d.removeField? asked sizes = some fewer ∧
            fewer.grouping = d.grouping.filter (· ≠ asked) := ⟨_, if_pos hasked, rfl⟩
        obtain ⟨hnodup, hmem⟩ := ih fewer
        simp only [removeFields, hfewer]
        refine ⟨List.nodup_cons.mpr ⟨fun hagain => ?_, hnodup⟩, fun field => ?_⟩
        · have := ((hmem asked).mp hagain).2
          simp [hgrouping] at this
        · rw [List.mem_cons, List.mem_cons, hmem, hgrouping]
          by_cases hsame : field = asked
          · simp [hsame, hasked]
          · simp [hsame]
      · obtain ⟨hnodup, hmem⟩ := ih d
        simp only [removeFields, removeField?_eq_none hasked]
        refine ⟨hnodup, fun field => ?_⟩
        rw [hmem, List.mem_cons]
        by_cases hsame : field = asked
        · simp [hsame, hasked]
        · simp [hsame]

/-- The fields that a sequence of removals adds to those that are null, where the first of them is
removed. -/
theorem emptyFields_append {fields emptyFields : List String} (hfield : field ∉ fields) :
    (if field ∈ emptyFields then emptyFields else emptyFields ++ [field]) ++
        fields.filter (· ∉ if field ∈ emptyFields then emptyFields else emptyFields ++ [field]) =
      emptyFields ++ (field :: fields).filter (· ∉ emptyFields) := by
  by_cases hempty : field ∈ emptyFields
  · simp [hempty]
  · have hsame : fields.filter (· ∉ emptyFields ++ [field]) = fields.filter (· ∉ emptyFields) := by
      refine List.filter_congr fun other hother => ?_
      have hne : other ≠ field := fun he => hfield (he ▸ hother)
      simp [hne]
    rw [if_neg hempty, hsame, List.filter_cons_of_pos (by simpa using hempty), List.append_assoc]
    rfl

theorem behind_removeFields (h : d.Around leaf sizes) (fields : List String) :
    let removed := (d.removeFields sizes fields).1
    (d.removeFields sizes fields).2 = { d with
      tree := Tree.grouped (d.grouping.filter (· ∉ removed)) leaf sizes
      grouping := d.grouping.filter (· ∉ removed)
      emptyFields := d.emptyFields ++ removed.filter (· ∉ d.emptyFields) } := by
  induction fields generalizing d with
  | nil =>
      obtain ⟨tree, countField, emptyRow, grouping, every, phase, emptyFields⟩ := d
      obtain rfl : tree = Tree.grouped grouping leaf sizes := h
      simp [removeFields]
  | cons asked fields ih =>
      by_cases hasked : asked ∈ d.grouping
      · have hfewer := removeField?_eq_some h hasked
        generalize hbehind : Descriptor.mk _ _ _ _ _ _ _ = fewer at hfewer
        have hfresh : asked ∉ (fewer.removeFields sizes fields).1 := fun hagain => by
          have hleft := (((fewer.removed_removeFields sizes fields).2 asked).mp hagain).2
          rw [← hbehind] at hleft
          simp at hleft
        simp only [removeFields, hfewer]
        rw [ih (hbehind ▸ rfl), ← hbehind]
        simp only [hbehind, emptyFields_append hfresh, List.filter_filter, List.mem_cons, not_or,
          Bool.decide_and, Bool.and_comm]
      · simp only [removeFields, removeField?_eq_none hasked]
        exact ih h

/-- Removing fields is the same as never having grouped by them. Each removal succeeds on a field
that is still grouped by and on no other, and behind any number of them the tree is the one built
without the removed fields, which are null from now on. -/
theorem removeFields_around (h : d.Around leaf sizes) (fields : List String) :
    let removed := (d.removeFields sizes fields).1
    let behind := (d.removeFields sizes fields).2
    (∀ field, (behind.removeField? field sizes).isSome ↔ field ∈ behind.grouping) ∧
      (∀ field, field ∈ removed ↔ field ∈ fields ∧ field ∈ d.grouping) ∧ removed.Nodup ∧
      behind = { d with
        tree := Tree.grouped (d.grouping.filter (· ∉ removed)) leaf sizes
        grouping := d.grouping.filter (· ∉ removed)
        emptyFields := d.emptyFields ++ removed.filter (· ∉ d.emptyFields) } := by
  intro removed behind
  obtain ⟨hnodup, hmem⟩ := d.removed_removeFields sizes fields
  refine ⟨fun field => ?_, hmem, hnodup, ?_⟩
  · rw [removeField?]
    split <;> simp_all
  · exact behind_removeFields h fields

/-- Groups that are nested in their own name and in that of the place of subtrees, around a level that
counts distinct users. One of the removed fields was null before, and another is asked for twice. -/
theorem removeFields_around_repeated :
    let leaf : Members := [("users", Tree.reducerNode .countUnique "user")]
    let sizes : BucketSizes := ⟨10, 1000⟩
    let grouping := ["host", "aggregations", "zone", "host"]
    let d : Descriptor := ⟨Tree.grouped grouping leaf sizes, none, [], grouping, none, none, ["host"]⟩
    let left := d.removeFields sizes ["rack", "host", "aggregations", "host"]
    d.Around leaf sizes ∧ left.1 = ["host", "aggregations"] ∧
      left.2 = ⟨[("zone", .object [("aggregations", .object leaf),
        ("terms", .object [("field", .text "zone"), ("size", .nat 10)])])],
          none, [], ["zone"], none, none, ["host", "aggregations"]⟩ := by
  intro leaf sizes grouping d left
  have hremoved : left.1 = ["host", "aggregations"] := by cbv
  have haround : d.Around leaf sizes := rfl
  obtain ⟨-, -, -, hbehind⟩ := removeFields_around haround ["rack", "host", "aggregations", "host"]
  refine ⟨haround, hremoved, hbehind.trans ?_⟩
  rw [show (d.removeFields sizes ["rack", "host", "aggregations", "host"]).1 = _ from hremoved]
  cbv

end Sluice.Descriptor
