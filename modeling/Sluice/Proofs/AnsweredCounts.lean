import Sluice.Proofs.WindowCounts

/-!
Counts that a store answers: those with widths it can read, over documents that a word can count.
-/
namespace Sluice

open Aggregation Grouping

namespace Result

/-- A bucket that can be read: its count is a word, and so are those inside it. -/
def Legible (item : Json) : Prop :=
  ∃ key keyText count results, item = bucketJson key keyText count results ∧
    count < Word.unsignedLimit ∧ Members.get? "key_as_string" results = none ∧
      (subOf? results).isSome = true

theorem isSome_bucketsOf? {items : List Json} (h : ∀ item ∈ items, Legible item) :
    (bucketsOf? items).isSome = true := by
  induction items with
  | nil => rfl
  | cons item items ih =>
      obtain ⟨key, keyText, count, results, rfl, hcount, hname, hsub⟩ := h item List.mem_cons_self
      obtain ⟨rest, hrest⟩ := Option.isSome_iff_exists.mp
        (ih fun item hitem => h item (List.mem_cons_of_mem _ hitem))
      obtain ⟨sub, hsub⟩ := Option.isSome_iff_exists.mp hsub
      rw [bucketsOf?_cons_bucketJson hname, Json.unsigned?_nat hcount, hsub, hrest]
      rfl

/-- A level of legible buckets is read wherever it stands. -/
theorem exists_ofJson?_level {items : List Json} {more : Members}
    (hvalue : Members.get? "value" more = none) (h : ∀ item ∈ items, Legible item) :
    ∃ buckets, bucketsOf? items = some buckets ∧
      ofJson? (.object (("buckets", .list items) :: more)) = some (.buckets buckets) := by
  obtain ⟨buckets, hbuckets⟩ := Option.isSome_iff_exists.mp (isSome_bucketsOf? h)
  have hnone : Members.get? "value" (("buckets", .list items) :: more) = none := by
    rw [Members.get?, if_neg (by decide), hvalue]
  refine ⟨buckets, hbuckets, ?_⟩
  rw [ofJson?, hnone]
  simp only [bucketsIn?, ↓reduceIte, hbuckets]
  rfl

theorem isSome_subOf?_level {name : String} (hname : name ∉ bucketKeys) {items : List Json}
    {more : Members} (hvalue : Members.get? "value" more = none)
    (h : ∀ item ∈ items, Legible item) :
    (subOf? [(name, .object (("buckets", .list items) :: more))]).isSome = true := by
  obtain ⟨buckets, -, hlevel⟩ := exists_ofJson?_level hvalue h
  rw [subOf?, if_neg hname, hlevel]
  rfl

end Result

/-- Widths and shifts that a store can read. -/
def Windows.Readable (phase : Option Phase) (every : Option Interval) : Prop :=
  ∀ width ∈ every, ∃ n offset, width = .millis n ∧ shift? phase width = .ok (some offset) ∧
    Duration.Readable n ∧ Duration.Readable offset

section Levels

variable {timeField : String} {every : Option Interval} {phase : Option Phase} {leaf : Members}
  {size : Nat} {documents : List Members}

theorem Aggregation.evaluate_histogram_legible {field : String} {width offset : Nat}
    (hlength : documents.length < Word.unsignedLimit) :
    ∃ items, evaluate (.histogram field width offset 0 []) documents =
      .ok (.object [("buckets", .list items)]) ∧ ∀ item ∈ items, Result.Legible item := by
  cases h : evaluate (.histogram field width offset 0 []) documents with
  | error r => exact absurd h evaluate_histogram_ne_error
  | ok result =>
      rw [evaluate] at h
      obtain ⟨items, hitems, h⟩ := bind_eq_ok.mp h
      cases h
      refine ⟨items, rfl, fun item hitem => ?_⟩
      obtain ⟨group, hgroup, hitem⟩ := exists_of_mapM_ok hitems hitem
      cases hitem
      obtain ⟨start, -, rfl⟩ := List.mem_map.mp (List.mem_filter.mp hgroup).1
      refine ⟨_, _, _, [], rfl, Nat.lt_of_le_of_lt ?_ hlength, rfl, rfl⟩
      rw [List.length_map]
      exact Nat.le_trans (List.length_filter_le _ _) (List.length_filterMap_le _ _)

/-- A level of groups is answered if what stands inside them is. -/
theorem Aggregation.evaluate_terms_legible {field : String} {sub : List (String × Aggregation)}
    (hinside : ∀ members : List Members, members.length < Word.unsignedLimit →
      ∃ results, evaluateAll sub members = .ok results ∧
        Members.get? "key_as_string" results = none ∧ (Result.subOf? results).isSome = true)
    (hlength : documents.length < Word.unsignedLimit) :
    ∃ items more, evaluate (.terms field size sub) documents =
      .ok (.object (("buckets", .list items) :: more)) ∧ Members.get? "value" more = none ∧
        ∀ item ∈ items, Result.Legible item := by
  have hgroups := groups_sortGroups field documents
  have hgroup : ∀ group ∈ (sortGroups (groupByField field documents)).take size,
      group.2.length < Word.unsignedLimit := by
    intro group hgroup
    rw [hgroups.members group (List.mem_of_mem_take hgroup)]
    exact Nat.lt_of_le_of_lt (List.length_filter_le _ _) hlength
  cases h : evaluate (.terms field size sub) documents with
  | error r =>
      rw [evaluate] at h
      rcases bind_eq_error.mp h with h | ⟨_, _, h⟩
      · obtain ⟨group, hmem, h⟩ := exists_of_mapM_error h
        obtain ⟨results, hresults, -⟩ := hinside group.2 (hgroup group hmem)
        rcases bind_eq_error.mp h with h | ⟨_, _, h⟩
        · rw [hresults] at h
          cases h
        · cases h
      · cases h
  | ok result =>
      obtain ⟨items, more, rfl, hvalue, hitems⟩ := Descriptor.evaluate_terms_eq_ok h
      refine ⟨items, more, rfl, hvalue, fun item hitem => ?_⟩
      obtain ⟨group, hmem, hitem⟩ := exists_of_mapM_ok hitems hitem
      obtain ⟨results, hresults, hname, hsub⟩ := hinside group.2 (hgroup group hmem)
      rw [Descriptor.groupBucket, hresults] at hitem
      cases hitem
      exact ⟨group.1, none, _, results, rfl, hgroup group hmem, hname, hsub⟩

/-- The levels of a count are answered, and the answer can be read. -/
theorem evaluateAll_legible (hsize : size < Word.unsignedLimit)
    (hleaf : Tree.Leaf timeField phase every leaf) (hreadable : Windows.Readable phase every)
    {grouping : List String} (hnames : ∀ field ∈ grouping, field ∉ Result.bucketKeys)
    (hlength : documents.length < Word.unsignedLimit) :
    ∃ results, evaluateAll (ofMembers (grouping.foldr (Tree.groupLevel size) leaf)) documents =
      .ok results ∧ Members.get? "key_as_string" results = none ∧
        (Result.subOf? results).isSome = true := by
  induction grouping generalizing documents with
  | nil =>
      cases hleaf with
      | whole => exact ⟨[], rfl, rfl, rfl⟩
      | @millis n offset hpos hshift =>
          obtain ⟨n', offset', hn, hshift', hwidth, hoffset⟩ := hreadable _ rfl
          cases hn
          rw [hshift'] at hshift
          cases hshift
          obtain ⟨items, hevaluate, hitems⟩ := @evaluate_histogram_legible documents timeField
            n.toNat offset.toNat hlength
          refine ⟨_, ?_, ?_, @Result.isSome_subOf?_level timeKey (by decide) items [] rfl hitems⟩
          · rw [List.foldr_nil, ofMembers_millisLevel_of_readable hpos hwidth hoffset, evaluateAll,
              hevaluate]
            rfl
          · rfl
  | cons field grouping ih =>
      have hinner := fun name hname => hnames name (List.mem_cons_of_mem field hname)
      obtain ⟨items, more, hevaluate, hvalue, hitems⟩ := @evaluate_terms_legible size documents
        field (ofMembers (grouping.foldr (Tree.groupLevel size) leaf)) (fun _ => ih hinner) hlength
      have hfield := hnames field List.mem_cons_self
      refine ⟨_, ?_, ?_, Result.isSome_subOf?_level hfield hvalue hitems⟩
      · rw [List.foldr_cons, ofMembers_groupLevel hsize, evaluateAll, hevaluate]
        rfl
      · refine Members.get?_eq_none fun hkey => hfield ?_
        obtain rfl := List.mem_singleton.mp hkey
        decide

end Levels

/-- A count with a readable width gets its rows, if a word can count the documents. -/
theorem Aggregator.Counting.answered {memory : MemoryStore} {a : Aggregator} {target : String}
    (h : a.Counting memory target)
    (hreadable : Windows.Readable a.descriptor.phase a.descriptor.every)
    (hlength : (memory.searched a.indices).length < Word.unsignedLimit) :
    a.Answered memory target := by
  intro window hmem
  obtain ⟨leaf, hleaf, htree⟩ := h.descriptor.tree
  have hfound : (a.found memory window).length < Word.unsignedLimit :=
    Nat.lt_of_le_of_lt (List.length_filter_le _ _) hlength
  obtain ⟨results, hresults, -, hsub⟩ :=
    evaluateAll_legible h.size_lt hleaf hreadable h.names hfound
  rw [← htree] at hresults
  rcases h.outcome_cases hmem with hrows | ⟨r, hrejected, -⟩ | ⟨results', hresults', hnone, -⟩
  · exact hrows
  · rw [tried, hresults] at hrejected
    cases hrejected
  · rw [tried, hresults] at hresults'
    cases hresults'
    rw [hnone] at hsub
    cases hsub

end Sluice
