import Sluice.Proofs.Answers
import Sluice.Proofs.Buckets

/-!
What one window of a pushed count yields: a row for each tuple of values among the documents of the
window, or an error that ends the read.
-/
namespace Sluice

open Aggregation Grouping

/-! ## Members of rows -/

namespace Members

theorem ofList_concat (bindings : List (String × Json)) (key : String) (value : Json) :
    ofList (bindings ++ [(key, value)]) = insert key value (ofList bindings) := by
  rw [ofList, List.foldl_append]
  rfl

theorem get?_ofList (bindings : List (String × Json)) (key : String) :
    get? key (ofList bindings) = bindings.reverse.lookup key := by
  induction bindings using List.reverseRecOn with
  | nil => rfl
  | append_singleton bindings binding ih =>
      obtain ⟨name, value⟩ := binding
      rw [ofList_concat, List.reverse_concat, List.lookup_cons]
      by_cases h : key = name
      · rw [h, get?_insert_self, beq_self_eq_true]
      · rw [get?_insert_of_ne _ _ h, ih, beq_false_of_ne h]

theorem get?_ofList_eq_none {key : String} {bindings : List (String × Json)}
    (h : key ∉ bindings.map Prod.fst) : get? key (ofList bindings) = none := by
  rw [get?_ofList, List.lookup_eq_none_iff]
  intro binding hbinding
  have hne : key ≠ binding.1 := fun hsame =>
    h (hsame ▸ List.mem_map_of_mem (List.mem_reverse.mp hbinding))
  exact bne_iff_ne.mpr hne

end Members

namespace Descriptor

theorem sortByTime_of_same {rows : List Members} (time : Option Json)
    (h : ∀ row ∈ rows, Members.get? timeKey row = time) : sortByTime rows = rows := by
  unfold sortByTime
  split
  · dsimp only
    rw [List.mergeSort_of_pairwise]
    · rw [List.map_map]
      exact List.map_id _
    · refine List.pairwise_map.mpr (List.pairwise_of_forall_mem_list fun a ha b hb => ?_)
      simp only [h a ha, h b hb]
      cases ((time.bind Moment.ofStored?).map Moment.nanos) with
      | none => rfl
      | some nanos => simp
  · rfl

variable {d : Descriptor} {timeField target : String} {size : Nat}

theorem fst_mem_of_mem_zip {grouping : List String} {values : List Json} {field : String}
    (h : field ∈ (grouping.zip values).map Prod.fst) : field ∈ grouping := by
  obtain ⟨⟨name, value⟩, hmem, rfl⟩ := List.mem_map.mp h
  exact (List.of_mem_zip hmem).1

/-- All rows of a window have the start of its time bucket, if it has one. -/
theorem get?_time_tupleRow (htarget : target ≠ timeKey) {grouping : List String}
    (htime : timeKey ∉ grouping) (documents : List Members) (every : Option Interval)
    (first : Moment) (values : List Json) :
    Members.get? timeKey
        (tupleRow target grouping documents (timePath every first) [] values) =
      if every.isSome then some (.text first.format) else none := by
  rw [tupleRow, List.nil_append, timePath]
  split
  · rw [← List.cons_append, Members.ofList_concat, Members.get?_insert_self]
  · refine Members.get?_ofList_eq_none ?_
    rw [List.append_nil, List.map_cons, List.mem_cons, not_or]
    exact ⟨Ne.symm htarget, fun hmem => htime (fst_mem_of_mem_zip hmem)⟩

theorem Levels.hasHistogram (h : d.Levels timeField size) :
    Tree.hasHistogram d.tree = d.every.isSome := by
  obtain ⟨leaf, hleaf, htree⟩ := h.tree
  rw [htree, ← hleaf.hasHistogram]
  exact Tree.hasHistogram_grouped d.grouping size leaf

end Descriptor

/-! ## Rejections -/

section Rejections

variable {timeField : String} {every : Option Interval} {phase : Option Phase} {leaf : Members}
  {size : Nat} {documents : List Members} {r : Rejection}

theorem rejected_leaf (hsize : size < Word.unsignedLimit) {grouping : List String}
    (h : evaluateAll (ofMembers (grouping.foldr (Tree.groupLevel size) leaf)) documents =
      .error r) : ∃ members, evaluateAll (ofMembers leaf) members = .error r := by
  induction grouping generalizing documents with
  | nil => exact ⟨documents, h⟩
  | cons field grouping ih =>
      rw [List.foldr_cons, ofMembers_groupLevel hsize, evaluateAll] at h
      rcases bind_eq_error.mp h with h | ⟨_, _, h⟩
      · rw [evaluate] at h
        rcases bind_eq_error.mp h with h | ⟨_, _, h⟩
        · obtain ⟨group, -, hgroup⟩ := exists_of_mapM_error h
          rcases bind_eq_error.mp hgroup with hinside | ⟨_, _, h⟩
          · exact ih hinside
          · cases h
        · cases h
      · cases h

theorem evaluate_histogram_ne_error {field : String} {width offset minimum : Nat} :
    evaluate (.histogram field width offset minimum []) documents ≠ .error r := by
  intro h
  rw [evaluate] at h
  rcases bind_eq_error.mp h with h | ⟨_, _, h⟩
  · obtain ⟨group, -, hgroup⟩ := exists_of_mapM_error h
    rcases bind_eq_error.mp hgroup with hinside | ⟨_, _, h⟩
    · cases hinside
    · cases h
  · cases h

/-- What the levels of a count refuse ends the read. -/
theorem absorb_of_rejected_leaf (hleaf : Tree.Leaf timeField phase every leaf)
    (h : evaluateAll (ofMembers leaf) documents = .error r) (status : Nat) :
    Store.absorb (.refused status r.payload.render) =
      .error (.store (.refused status r.payload.render)) := by
  cases hleaf with
  | whole => cases h
  | @millis n offset hpos hshift =>
      by_cases hreadable : Duration.Readable n ∧ Duration.Readable offset
      · obtain ⟨hn, hoffset⟩ := hreadable
        rw [ofMembers_millisLevel_of_readable hpos hn hoffset, evaluateAll] at h
        rcases bind_eq_error.mp h with h | ⟨_, _, h⟩
        · exact absurd h evaluate_histogram_ne_error
        · cases h
      · obtain ⟨m, cause, hcause, hrejected⟩ :=
          @ofMembers_millisLevel_of_not_readable timeField n offset hpos hreadable
        rw [hrejected, evaluateAll, evaluate] at h
        cases h
        exact Rejection.absorb_intervalMalformed hcause m status

end Rejections

theorem Grouping.tuples_nil (grouping : List String) : tuples grouping [] = [] := by
  cases grouping with
  | nil => rfl
  | cons field grouping =>
      have hgroups : (sortGroups (groupByField field [])) = [] := by
        rw [← List.length_eq_zero_iff, length_sortGroups]
        rfl
      rw [tuples, hgroups, List.flatMap_nil]

/-! ## Windows -/

namespace Aggregator

/-- The documents of a window. -/
def found (memory : MemoryStore) (a : Aggregator) (window : Moment × Moment) : List Members :=
  selected a.options.timeField (Windows.clip a.range window) a.filter (memory.searched a.indices)

/-- What a window yields at the first try. -/
def outcome (memory : MemoryStore) (a : Aggregator) (window : Moment × Moment) :
    Except ReadError (List Members) :=
  (memory.answer (a.request (Windows.clip a.range window) a.descriptor.tree)).bind
    (rowsOf a.descriptor)

/-- The rows of a window without their time. -/
def logs (memory : MemoryStore) (a : Aggregator) (target : String) (window : Moment × Moment) :
    List Members :=
  let found := a.found memory window
  (tuples a.descriptor.grouping found).map (Descriptor.tupleRow target a.descriptor.grouping found
    (Descriptor.timePath a.descriptor.every window.1) [])

/-- Whether all windows get their rows. -/
def Answered (memory : MemoryStore) (a : Aggregator) (target : String) : Prop :=
  ∀ window ∈ a.windows, a.outcome memory window = .ok (a.logs memory target window)

/-- Windows over times from the epoch on, and a filter that the store takes. -/
structure Placed (memory : MemoryStore) (a : Aggregator) : Prop where
  timed : ∀ document ∈ memory.searched a.indices, Document.Timed a.options.timeField document
  decides : ∀ clause ∈ a.filter.toList, Condition.Decides clause
  recent : a.range.Recent
  fixed : ∀ width ∈ a.descriptor.every, width.Fixed
  boundaries : Windows.boundaries a.range a.descriptor.every a.descriptor.phase = .ok a.boundaries

/-- A pushed count over the documents of a store. -/
structure Counting (memory : MemoryStore) (a : Aggregator) (target : String) : Prop
    extends a.Placed memory where
  descriptor : a.descriptor.Counts a.options.timeField target a.options.sizes.default
  size_lt : a.options.sizes.default < Word.unsignedLimit
  names : ∀ field ∈ a.descriptor.grouping, field ∉ Result.bucketKeys
  present : ∀ window ∈ a.windows, Present a.descriptor.grouping (a.found memory window)
  fits : ∀ window ∈ a.windows,
    Fits a.options.sizes.default a.descriptor.grouping (a.found memory window)

variable {memory : MemoryStore} {a : Aggregator} {target : String} {window : Moment × Moment}

theorem Placed.filter_matched (h : a.Placed memory) (hmem : window ∈ a.windows) :
    (memory.searched a.indices).filter (Query.counting
      ((Windows.clip a.range window).clause a.options.timeField :: a.filter.toList)).matched =
        a.found memory window := by
  have hclip := Windows.writable_clip h.recent h.fixed h.boundaries hmem
  rw [found, selected]
  refine List.filter_congr fun document hdocument => ?_
  rw [Query.matched, Query.counting, List.all_cons,
    Condition.met_range_clause (h.timed document hdocument) hclip]

/-- The store's time buckets agree with the windows. -/
theorem Placed.bucketed (h : a.Placed memory) (hmem : window ∈ a.windows) :
    a.descriptor.BucketedAt a.options.timeField window.1 (a.found memory window) := by
  intro n offset hevery hshift _ hoffset
  obtain ⟨m, hm, hpos, hword⟩ := h.fixed (.millis n) hevery
  cases hm
  have hboundaries := h.boundaries
  rw [hevery] at hboundaries
  have hfits : Word.FitsSigned offset := by
    obtain ⟨hlo, hhi⟩ := hoffset
    simp only [Word.unsignedLimit, Word.FitsSigned, Word.signedLimit] at hhi ⊢
    omega
  obtain ⟨start, hstart, hcovers⟩ := Windows.floorMillis?_of_covers h.recent hpos hword hboundaries
    hshift hoffset.1 hfits hmem
  refine ⟨start, hstart, fun document hdocument => ?_⟩
  obtain ⟨-, ⟨m, hm, hcover⟩, -⟩ := mem_selected.mp hdocument
  exact ⟨m, hm, hcovers m hcover⟩

theorem Placed.decides_clauses (h : a.Placed memory) (window : Moment × Moment) :
    ∀ clause ∈ (Windows.clip a.range window).clause a.options.timeField :: a.filter.toList,
      Condition.Decides clause := by
  intro clause hclause
  rcases List.mem_cons.mp hclause with rfl | hclause
  · exact fun document => ⟨_, Condition.holds_range _ _⟩
  · exact h.decides clause hclause

theorem Counting.not_mem_bucketKeys (h : a.Counting memory target) :
    ∀ field ∈ a.descriptor.grouping, field ∉ Result.bucketKeys ∧ field ≠ timeKey :=
  fun field hfield => ⟨h.names field hfield,
    fun htime => h.descriptor.time_not_mem (htime ▸ hfield)⟩

/-- What a store evaluates for a window. -/
def tried (memory : MemoryStore) (a : Aggregator) (window : Moment × Moment) :
    Except Rejection Members :=
  evaluateAll (ofMembers a.descriptor.tree) (a.found memory window)

theorem Counting.named?_eq (h : a.Counting memory target) {results : Members}
    (hresults : a.tried memory window = .ok results) :
    Result.named? (.object results) = Result.subOf? results := by
  obtain ⟨leaf, hleaf, htree⟩ := h.descriptor.tree
  refine Result.named?_object fun name hname => ?_
  rw [Descriptor.keys_of_evaluateAll hresults, Descriptor.map_fst_ofMembers, htree] at hname
  exact Descriptor.name_of_level hleaf h.names name hname

theorem Counting.rowsOf_answer (h : a.Counting memory target) (hmem : window ∈ a.windows)
    {results : Members} {aggregations : Results} (hresults : a.tried memory window = .ok results)
    (hsub : Result.subOf? results = some aggregations) :
    rowsOf a.descriptor ⟨(a.found memory window).length, [], aggregations⟩ =
      .ok (a.logs memory target window) := by
  by_cases hne : a.found memory window = []
  · rw [rowsOf, logs, hne, tuples_nil]
    rfl
  · obtain ⟨leaf, hleaf, htree⟩ := h.descriptor.tree
    rw [tried, htree] at hresults
    have hrows := h.descriptor.rowsBelow_grouped h.size_lt hleaf (h.bucketed hmem)
      h.not_mem_bucketKeys hne (h.present window hmem) (h.fits window hmem) hresults hsub []
    have hsorted : Descriptor.sortByTime (a.logs memory target window) =
        a.logs memory target window := by
      refine Descriptor.sortByTime_of_same
        (if a.descriptor.every.isSome then some (.text window.1.format) else none)
        fun row hrow => ?_
      obtain ⟨values, -, rfl⟩ := List.mem_map.mp hrow
      exact Descriptor.get?_time_tupleRow h.descriptor.target_ne h.descriptor.time_not_mem _ _ _ _
    have hcount : (a.found memory window).length ≠ 0 :=
      fun hzero => hne (List.length_eq_zero_iff.mp hzero)
    have hdescriptor : a.descriptor.rowsOf ⟨(a.found memory window).length, [], aggregations⟩ =
        .ok (a.logs memory target window) := by
      rw [Descriptor.rowsOf, h.descriptor.hasHistogram]
      exact (congrArg (· >>= fun rows => pure (Descriptor.sortByTime rows)) hrows).trans
        (congrArg Except.ok hsorted)
    rw [rowsOf, if_neg hcount, hdescriptor]
    rfl

/-- A window yields a row for each tuple of values, unless the store refuses its levels or the
answer cannot be read. -/
theorem Counting.outcome_cases (h : a.Counting memory target) (hmem : window ∈ a.windows) :
    a.outcome memory window = .ok (a.logs memory target window) ∨
      (∃ r, a.tried memory window = .error r ∧ a.outcome memory window =
        (Store.absorb (.refused r.status r.payload.render)).bind (rowsOf a.descriptor)) ∨
      ∃ results, a.tried memory window = .ok results ∧ Result.subOf? results = none ∧
        a.outcome memory window = .error (.store (.undecodable .shape)) := by
  have hanswer := @MemoryStore.answer_counting memory a.indices _ (h.decides_clauses window)
    a.descriptor.tree
  dsimp only at hanswer
  rw [h.filter_matched hmem] at hanswer
  have houtcome : a.outcome memory window = (memory.answer ⟨a.indices, ((Query.counting
      ((Windows.clip a.range window).clause a.options.timeField :: a.filter.toList)).aggregate
        a.descriptor.tree).toJson⟩).bind (rowsOf a.descriptor) := rfl
  rcases hanswer with ⟨hnone, hanswer⟩ | ⟨r, hrejected, hanswer⟩ | ⟨results, hresults, hanswer⟩
  · left
    rw [houtcome, hanswer, logs, hnone, tuples_nil]
    rfl
  · exact .inr (.inl ⟨r, hrejected, by rw [houtcome, hanswer]⟩)
  · rw [h.named?_eq hresults] at hanswer
    cases hsub : Result.subOf? results with
    | none =>
        refine .inr (.inr ⟨results, hresults, hsub, ?_⟩)
        rw [houtcome, hanswer, hsub]
        rfl
    | some aggregations =>
        left
        rw [houtcome, hanswer, hsub]
        exact h.rowsOf_answer hmem hresults hsub

/-- A window yields a row for each tuple of values, or an error that is no unknown field. -/
theorem Counting.outcome_eq (h : a.Counting memory target) (hmem : window ∈ a.windows) :
    (∃ e, a.outcome memory window = .error e ∧ e.unknownField? = none) ∨
      a.outcome memory window = .ok (a.logs memory target window) := by
  rcases h.outcome_cases hmem with hrows | ⟨r, hrejected, houtcome⟩ | ⟨results, -, -, houtcome⟩
  · exact .inr hrows
  · obtain ⟨leaf, hleaf, htree⟩ := h.descriptor.tree
    rw [tried, htree] at hrejected
    obtain ⟨members, hrejected⟩ := rejected_leaf h.size_lt hrejected
    rw [absorb_of_rejected_leaf hleaf hrejected] at houtcome
    exact .inl ⟨_, houtcome, rfl⟩
  · exact .inl ⟨_, houtcome, rfl⟩

end Aggregator

/-! ## Reductions that are pushed -/

namespace Reduce

variable {memory : MemoryStore} {config : Config} {range : TimeRange} {filter : Option Json}
  {r : Reduce} {d : Descriptor} {boundaries : List Moment}

/-- A reduce step that a read takes over, as `d`, over times from the epoch on. -/
structure Pushed (memory : MemoryStore) (config : Config) (range : TimeRange)
    (filter : Option Json) (r : Reduce) (d : Descriptor) : Prop where
  plan : Plan.descriptor? (Plan.optionsOf config) r = .ok (some d)
  size_lt : config.sizes.default < Word.unsignedLimit
  recent : range.Recent
  filter : Filter.Compiled filter
  timed : ∀ document ∈ memory.searched config.indices, Document.Timed config.timeField document

/-- The aggregator that a pushed reduction starts with. -/
def aggregator (config : Config) (range : TimeRange) (filter : Option Json) (d : Descriptor)
    (boundaries : List Moment) : Aggregator where
  indices := config.indices
  filter := filter
  options := config.windowOptions
  descriptor := d
  range := range
  boundaries := boundaries
  next := 0
  lastRowWindow := none

theorem start?_aggregator (config : Config) (filter : Option Json)
    (h : Windows.boundaries range d.every d.phase = .ok boundaries) :
    Aggregator.start? config.indices range d config.windowOptions filter =
      .ok (aggregator config range filter d boundaries) := by
  rw [Aggregator.start?, h]
  rfl

theorem Pushed.levels (h : r.Pushed memory config range filter d) :
    d.Levels config.timeField config.sizes.default ∧ d.grouping = r.groupBy ∧
      d.every = r.every ∧ d.phase = r.phase := by
  obtain ⟨hlevels, hgrouping, hevery, hphase, -⟩ := Plan.descriptor?_levels h.plan
  exact ⟨hlevels, hgrouping, hevery, hphase⟩

theorem Pushed.placed (h : r.Pushed memory config range filter d)
    (hfixed : ∀ width ∈ d.every, width.Fixed)
    (hboundaries : Windows.boundaries range d.every d.phase = .ok boundaries) :
    (aggregator config range filter d boundaries).Placed memory where
  timed := h.timed
  decides := h.filter.decides
  recent := h.recent
  fixed := hfixed
  boundaries := hboundaries

end Reduce
end Sluice
