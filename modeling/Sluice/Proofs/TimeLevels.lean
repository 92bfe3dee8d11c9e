import Sluice.Proofs.Removals

/-!
The level of time buckets in the tree of a reduction. It is there exactly where the reduction has
windows, and it stays as it is while group fields are removed, whatever the names of the groups, of
the results and of the fields that are computed over.
-/
namespace Sluice

theorem Members.mem_insert {key : String} {value : Json} {members : Members} {entry : String × Json}
    (h : entry ∈ Members.insert key value members) : entry = (key, value) ∨ entry ∈ members := by
  induction members with
  | nil => exact .inl (List.mem_singleton.mp h)
  | cons first rest ih =>
      simp only [Members.insert] at h
      split at h
      · exact List.mem_cons.mp h
      · split at h
        · rcases List.mem_cons.mp h with h | h
          · exact .inl h
          · exact .inr (List.mem_cons_of_mem _ h)
        · rcases List.mem_cons.mp h with rfl | h
          · exact .inr List.mem_cons_self
          · rcases ih h with h | h
            · exact .inl h
            · exact .inr (List.mem_cons_of_mem _ h)

namespace Tree

variable {p : String → Json → Bool} {tree leaf : Members}

theorem anyNode_eq_any (p : String → Json → Bool) (tree : Members) :
    anyNode p tree = tree.any fun (name, node) => p name node || anyBelow p node := by
  induction tree with
  | nil => rfl
  | cons entry rest ih => rw [anyNode, ih, List.any_cons]

/-- A node that has no such node below it, put in a tree without any. -/
theorem anyNode_insert {name : String} {node : Json} (htree : anyNode p tree = false)
    (hnode : p name node = false) (hbelow : anyBelow p node = false) :
    anyNode p (Members.insert name node tree) = false := by
  rw [anyNode_eq_any, List.any_eq_false] at htree ⊢
  intro entry hmem
  rcases Members.mem_insert hmem with rfl | hmem
  · simp [hnode, hbelow]
  · exact htree entry hmem

theorem hasHistogram_leaves? {specs : List ReducerSpec} (h : leaves? specs tree = some leaf)
    (htree : hasHistogram tree = false) : hasHistogram leaf = false := by
  induction specs generalizing tree with
  | nil =>
      cases h
      exact htree
  | cons spec specs ih =>
      simp only [leaves?] at h
      split at h
      · rename_i field _
        apply ih h
        apply anyNode_insert htree
        · cases spec.reducer <;>
            simp [reducerNode, Reducer.aggregationName, Json.member?, Members.get?]
        · cases spec.reducer <;>
            simp [reducerNode, Reducer.aggregationName, anyBelow, anyUnder, subKey]
      · split at h
        · exact ih h htree
        · cases h

theorem hasHistogram_histogram? {timeField : String} {every : Interval} {phase : Option Phase}
    (h : histogram? timeField every phase tree = .ok (some leaf)) : hasHistogram leaf = true := by
  obtain ⟨written, offset, -, rfl, -⟩ := histogram?_eq_ok h
  have hne : "date_histogram" ≠ subKey := by decide
  simp [hasHistogram, timeLevel, anyNode, member?_withSub hne, Members.get?]

/-- The tree of a reduction is built around time buckets exactly where there are windows. -/
theorem exists_leaf_of_ofReduction? {grouping : List String} {specs : List ReducerSpec}
    {every : Option Interval} {phase : Option Phase} {timeField : String} {sizes : BucketSizes}
    (h : ofReduction? grouping specs every phase timeField sizes = .ok (some tree)) :
    ∃ leaf, tree = grouped grouping leaf sizes ∧ hasHistogram leaf = every.isSome := by
  unfold ofReduction? at h
  cases hleaves : leaves? specs [] with
  | none =>
      rw [hleaves] at h
      cases h
  | some leaves =>
      rw [hleaves] at h
      cases every with
      | none =>
          cases h
          exact ⟨leaves, rfl, hasHistogram_leaves? hleaves rfl⟩
      | some every =>
          obtain ⟨leaf?, hleaf, h⟩ := bind_eq_ok.mp h
          obtain ⟨leaf, rfl, rfl⟩ := Option.map_eq_some_iff.mp (Except.ok.inj h)
          exact ⟨leaf, rfl, hasHistogram_histogram? hleaf⟩

end Tree

namespace Descriptor

variable {d behind : Descriptor} {leaf : Members} {sizes : BucketSizes}

/-- The descriptor behind removals that all succeed, each with bucket sizes of its own. -/
def removeAll? (d : Descriptor) (removals : List (String × BucketSizes)) : Option Descriptor :=
  removals.foldlM (fun d (field, sizes) => d.removeField? field sizes) d

theorem Around.removeField? {fewer : Descriptor} {field : String} {sizes' : BucketSizes}
    (h : d.Around leaf sizes) (hfewer : d.removeField? field sizes' = some fewer) :
    fewer.Around leaf sizes' := by
  unfold Descriptor.removeField? at hfewer
  split at hfewer
  · cases hfewer
    rw [Around, h.ungrouped]
  · cases hfewer

theorem Around.removeAll? {removals : List (String × BucketSizes)} (h : d.Around leaf sizes)
    (hbehind : d.removeAll? removals = some behind) : ∃ sizes', behind.Around leaf sizes' := by
  induction removals generalizing d sizes with
  | nil =>
      cases hbehind
      exact ⟨sizes, h⟩
  | cons removal removals ih =>
      obtain ⟨fewer, hfewer, hbehind⟩ := Option.bind_eq_some_iff.mp hbehind
      exact ih (h.removeField? hfewer) hbehind

theorem Around.hasHistogram (h : d.Around leaf sizes) :
    Tree.hasHistogram d.tree = Tree.hasHistogram leaf := by
  rw [h]
  exact Tree.hasHistogram_grouped d.grouping _ leaf

/-- The tree of a reduction has a level of time buckets exactly where the reduction has windows, and
so has the tree of a descriptor behind any removals of group fields. Rows are read off a response
with a level of time buckets inside the groups, or without one, accordingly. -/
theorem hasHistogram_removals {tree : Members} {grouping : List String}
    {specs : List ReducerSpec} {every : Option Interval} {phase : Option Phase}
    {timeField : String} {removals : List (String × BucketSizes)}
    (htree : Tree.ofReduction? grouping specs every phase timeField sizes = .ok (some tree))
    (hd : d.tree = tree ∧ d.grouping = grouping) (hbehind : d.removeAll? removals = some behind) :
    Tree.hasHistogram tree = every.isSome ∧ Tree.hasHistogram behind.tree = every.isSome ∧
      ∀ response, behind.rowsOf response = do
        let levels := behind.grouping ++ if every.isSome then [timeKey] else []
        let rows ← behind.rowsBelow every.isSome levels response.aggregations response.total []
        return sortByTime rows := by
  obtain ⟨leaf, hgrouped, hleaf⟩ := Tree.exists_leaf_of_ofReduction? htree
  obtain ⟨rfl, rfl⟩ := hd
  have haround : d.Around leaf sizes := hgrouped
  obtain ⟨sizes', haround'⟩ := haround.removeAll? hbehind
  have hhistogram : Tree.hasHistogram behind.tree = every.isSome :=
    haround'.hasHistogram.trans hleaf
  refine ⟨haround.hasHistogram.trans hleaf, hhistogram, fun response => ?_⟩
  rw [rowsOf, hhistogram]

/-- Groups and results that are named like time buckets and like the place of subtrees, without
windows. One of the groups is removed together with the second of its name. -/
theorem hasHistogram_removals_shadowed :
    let grouping := ["time", "aggregations", "date_histogram", "time"]
    let specs : List ReducerSpec := [⟨"time", .countUnique, some "date_histogram"⟩,
      ⟨"date_histogram", .count, none⟩]
    let tree := Tree.grouped grouping
      [("time", Tree.reducerNode .countUnique "date_histogram")] ⟨10, 1000⟩
    let d : Descriptor := ⟨tree, none, [], grouping, none, none, []⟩
    let removals := [("time", ⟨20, 2000⟩), ("aggregations", ⟨30, 3000⟩)]
    Tree.ofReduction? grouping specs none none "at" ⟨10, 1000⟩ = .ok (some tree) ∧
      ∃ behind, d.removeAll? removals = some behind ∧ behind.grouping = ["date_histogram"] ∧
        Tree.hasHistogram tree = false ∧ Tree.hasHistogram behind.tree = false := by
  intro grouping specs tree d removals
  have htree : Tree.ofReduction? grouping specs none none "at" ⟨10, 1000⟩ = .ok (some tree) := by
    cbv
  obtain ⟨behind, hbehind, hgrouping⟩ :
      ∃ behind, d.removeAll? removals = some behind ∧ behind.grouping = ["date_histogram"] :=
    ⟨_, rfl, by cbv⟩
  obtain ⟨hbuilt, hleft, -⟩ := hasHistogram_removals htree ⟨rfl, rfl⟩ hbehind
  exact ⟨htree, behind, hbehind, hgrouping, hbuilt, hleft⟩

end Descriptor

end Sluice
