import Sluice.Proofs.AnsweredCounts
import Sluice.Proofs.WindowStreams
import Sluice.Proofs.YearlyWidths

/-!
Reductions that a read takes over, run to their end. A window either has rows or lacks a field, which
is dropped before the next try, so that the stream has no error, as long as no inner group has the
name of something that buckets say of themselves.
-/
namespace Sluice

open Aggregation Grouping

namespace Descriptor

variable {d : Descriptor} {timeField : String} {size : Nat} {documents : List Members}
  {leaf : Members} {first : Moment} {grouping : List String} {e : RowsError}

/-! ## Rows -/

/-- A level has no rows only where it or one inside it is of a field that the store does not know. -/
theorem rowsBelow_level_error {field : String} (htime : field ≠ timeKey)
    {buckets : List Bucket}
    (hbuckets : List.Forall₂ (Result.BucketFor fun members results =>
      evaluateAll (ofMembers (grouping.foldr (Tree.groupLevel size) leaf)) members = .ok results)
      ((sortGroups (groupByField field documents)).take size) buckets)
    (hinside : ∀ members, members ⊆ documents → members ≠ [] → ∀ results aggregations path,
      evaluateAll (ofMembers (grouping.foldr (Tree.groupLevel size) leaf)) members = .ok results →
      Result.subOf? results = some aggregations →
      d.rowsBelow d.every.isSome (grouping ++ timeLevels d.every) aggregations members.length
        path = .error e → ∃ name ∈ grouping, e = .fieldUnknown name)
    {total : Nat} {path : List (String × Json)}
    (h : d.rowsBelow d.every.isSome (field :: (grouping ++ timeLevels d.every))
      [(field, .buckets buckets)] total path = .error e) :
    ∃ name ∈ field :: grouping, e = .fieldUnknown name := by
  by_cases hsome : buckets = []
  · subst hsome
    have hlevel : isTimeLevel d.every.isSome field = false := by simp [isTimeLevel, htime]
    simp only [rowsBelow, List.lookup_cons, beq_self_eq_true, hlevel] at h
    cases h
    exact ⟨field, List.mem_cons_self, rfl⟩
  · rw [rowsBelow_buckets hsome] at h
    rcases bind_eq_error.mp h with h | ⟨_, _, h⟩
    · have hgroups := groups_sortGroups field documents
      obtain ⟨bucket, hbucket, h⟩ := exists_of_mapM_error h
      obtain ⟨group, hgroup, -, hcount, results, hresults, hsub⟩ :=
        exists_of_forall₂ hbuckets hbucket
      have hmem := List.mem_of_mem_take hgroup
      have hsubset : group.2 ⊆ documents := by
        rw [hgroups.members group hmem]
        exact List.filter_subset_self _
      rw [bucketKey_of_ne htime, ok_bind, hcount] at h
      obtain ⟨name, hname, he⟩ :=
        hinside group.2 hsubset (hgroups.ne_nil hmem) _ _ _ hresults hsub h
      exact ⟨name, List.mem_cons_of_mem _ hname, he⟩
    · cases h

/-- Below groups there are rows, unless the store does not know a field. -/
theorem rowsBelow_error (d : Descriptor) (hsize : size < Word.unsignedLimit)
    (hleaf : Tree.Leaf timeField d.phase d.every leaf)
    (hbucketed : d.BucketedAt timeField first documents)
    (hnames : ∀ field ∈ grouping, field ∉ Result.bucketKeys ∧ field ≠ timeKey)
    (hne : documents ≠ []) {results : Members} {aggregations : Results}
    (hresults : evaluateAll (ofMembers (grouping.foldr (Tree.groupLevel size) leaf)) documents =
      .ok results)
    (haggregations : Result.subOf? results = some aggregations) {path : List (String × Json)}
    (h : d.rowsBelow d.every.isSome (grouping ++ timeLevels d.every) aggregations documents.length
      path = .error e) : ∃ field ∈ grouping, e = .fieldUnknown field := by
  induction grouping generalizing documents results aggregations path with
  | nil =>
      rw [List.nil_append, d.rowsBelow_leaf hleaf hne hbucketed hresults haggregations path] at h
      cases h
  | cons field grouping ih =>
      obtain ⟨hfield, htime⟩ := hnames field List.mem_cons_self
      have hinner := fun name hname => hnames name (List.mem_cons_of_mem field hname)
      obtain ⟨buckets, rfl, hbuckets⟩ := buckets_of_level hsize hleaf hfield
        (fun name hname => (hinner name hname).1) hresults haggregations
      refine rowsBelow_level_error htime hbuckets
        (fun members hsubset hsome results aggregations path hinside hsub herror => ?_) h
      exact ih (hbucketed.mono hsubset) hinner hsome hinside hsub herror

/-- The store answers for all levels, and rows can be had unless it does not know a field. -/
theorem Levels.rowsOf_error (h : d.Levels timeField size) (hsize : size < Word.unsignedLimit)
    (hnames : ∀ field ∈ d.grouping.tail, field ∉ Result.bucketKeys)
    (hreadable : Windows.Readable d.phase d.every)
    (hbucketed : d.BucketedAt timeField first documents)
    (hlength : documents.length < Word.unsignedLimit) :
    ∃ results aggregations, evaluateAll (ofMembers d.tree) documents = .ok results ∧
      Result.named? (.object results) = some aggregations ∧
      (documents ≠ [] → ∀ e, d.rowsOf ⟨documents.length, [], aggregations⟩ = .error e →
        ∃ field ∈ d.grouping, e = .fieldUnknown field) := by
  obtain ⟨leaf, hleaf, htree⟩ := h.tree
  have hbelow : ∀ {aggregations : Results} {e}, d.rowsOf ⟨documents.length, [], aggregations⟩ =
      .error e → d.rowsBelow d.every.isSome (d.grouping ++ timeLevels d.every) aggregations
        documents.length [] = .error e := by
    intro aggregations e herror
    rw [Descriptor.rowsOf, h.hasHistogram] at herror
    rcases bind_eq_error.mp herror with herror | ⟨_, _, herror⟩
    · exact herror
    · cases herror
  have htime := h.time_not_mem
  rw [htree]
  cases hgrouping : d.grouping with
  | nil =>
      rw [hgrouping] at hbelow
      have hnone : ∀ name ∈ ([] : List String), name ∉ Result.bucketKeys :=
        fun _ hname => absurd hname List.not_mem_nil
      obtain ⟨results, hresults, -, hsub⟩ := evaluateAll_legible hsize hleaf hreadable hnone hlength
      obtain ⟨aggregations, hsub⟩ := Option.isSome_iff_exists.mp hsub
      have hnamed : Result.named? (.object results) = Result.subOf? results := by
        refine Result.named?_object fun name hname => ?_
        rw [keys_of_evaluateAll hresults, map_fst_ofMembers] at hname
        exact name_of_level hleaf hnone name hname
      refine ⟨results, aggregations, hresults, hnamed.trans hsub, fun hne e herror => ?_⟩
      exact d.rowsBelow_error hsize hleaf hbucketed (fun _ hname => absurd hname List.not_mem_nil)
        hne hresults hsub (hbelow herror)
  | cons field grouping =>
      rw [hgrouping] at hnames htime hbelow
      have hfield : field ≠ timeKey := fun he => htime (he ▸ List.mem_cons_self)
      have hinner : ∀ name ∈ grouping, name ∉ Result.bucketKeys ∧ name ≠ timeKey :=
        fun name hname =>
          ⟨hnames name hname, fun he => htime (he ▸ List.mem_cons_of_mem field hname)⟩
      have hplain := fun name hname => (hinner name hname).1
      obtain ⟨items, more, hevaluate, hvalue, hitems⟩ := @evaluate_terms_legible size documents
        field _ (fun _ => evaluateAll_legible hsize hleaf hreadable hplain) hlength
      obtain ⟨buckets, hbuckets, hlevel⟩ := Result.exists_ofJson?_level hvalue hitems
      refine ⟨[(field, .object (("buckets", .list items) :: more))], [(field, .buckets buckets)],
        ?_, ?_, fun _ e herror => ?_⟩
      · rw [List.foldr_cons, ofMembers_groupLevel hsize, evaluateAll, hevaluate]
        rfl
      · simp [Result.named?, Json.object?, hlevel]
      · obtain ⟨_, _, heq, -, hgroups⟩ := evaluate_terms_eq_ok hevaluate
        cases heq
        refine rowsBelow_level_error hfield (forall₂_level hleaf hplain hgroups hbuckets)
          (fun members hsubset hsome results aggregations path hinside hsub herror => ?_)
          (hbelow herror)
        exact d.rowsBelow_error hsize hleaf (hbucketed.mono hsubset) hinner hsome hinside hsub
          herror

/-! ## Dropped groups -/

/-- The levels of groups, with windows of some width and phase, that the answers of a store can be
read for. -/
structure Runs (d : Descriptor) (timeField : String) (size : Nat) (every : Option Interval)
    (phase : Option Phase) : Prop where
  levels : d.Levels timeField size
  names : ∀ field ∈ d.grouping.tail, field ∉ Result.bucketKeys
  every : d.every = every
  phase : d.phase = phase

theorem Runs.removeField? {fewer : Descriptor} {field : String} {sizes : BucketSizes}
    {every : Option Interval} {phase : Option Phase}
    (h : d.Runs timeField sizes.default every phase)
    (hfewer : d.removeField? field sizes = some fewer) :
    fewer.Runs timeField sizes.default every phase := by
  obtain ⟨hlevels, hgrouping, hevery, hphase⟩ := h.levels.removeField? hfewer
  refine ⟨hlevels, fun name hname => ?_, hevery.trans h.every, hphase.trans h.phase⟩
  have hnames := h.names
  rw [hgrouping] at hname
  -- A field that stays behind another one was behind another one before.
  cases hold : d.grouping with
  | nil =>
      rw [hold] at hname
      cases hname
  | cons head rest =>
      rw [hold] at hname hnames
      rw [List.filter_cons] at hname
      split at hname
      · exact hnames name (List.mem_of_mem_filter hname)
      · exact hnames name (List.mem_of_mem_filter (List.mem_of_mem_tail hname))

theorem Runs.without {sizes : BucketSizes} {every : Option Interval} {phase : Option Phase}
    (h : d.Runs timeField sizes.default every phase) (fields : List String) :
    (d.without sizes fields).Runs timeField sizes.default every phase := by
  induction fields generalizing d with
  | nil => exact h
  | cons field fields ih =>
      refine ih ?_
      unfold drop
      split
      · exact h
      · cases hfewer : d.removeField? field sizes with
        | none => exact h
        | some fewer => exact h.removeField? hfewer

end Descriptor

/-! ## Windows -/

namespace Aggregator

variable {memory : MemoryStore} {a : Aggregator} {d : Descriptor} {window : Moment × Moment}
  {windows : List (Moment × Moment)} {session : Session ScriptedStore}

/-- The descriptors that a reduction goes through as fields are dropped. -/
def Running (a : Aggregator) (d : Descriptor) : Prop :=
  d.Runs a.options.timeField a.options.sizes.default a.descriptor.every a.descriptor.phase

/-- A reduction that a memory can run: the store reads its widths, and a word counts its
documents. -/
structure Runnable (memory : MemoryStore) (a : Aggregator) : Prop extends a.Placed memory where
  running : a.Running a.descriptor
  readable : Windows.Readable a.descriptor.phase a.descriptor.every
  size_lt : a.options.sizes.default < Word.unsignedLimit
  length_lt : (memory.searched a.indices).length < Word.unsignedLimit

theorem Runnable.having (h : a.Runnable memory) (hd : a.Running d) (next : Nat)
    (last : Option Nat) : (a.having d next last).Runnable memory := by
  obtain ⟨⟨htimed, hdecides, hrecent, hfixed, hboundaries⟩, -, hreadable, hsize, hlength⟩ := h
  have hevery := hd.every.symm
  have hphase := hd.phase.symm
  refine ⟨⟨htimed, hdecides, hrecent, ?_, ?_⟩, ?_, ?_, hsize, hlength⟩
  · rwa [hevery] at hfixed
  · rwa [hevery, hphase] at hboundaries
  · exact ⟨hd.levels, hd.names, rfl, rfl⟩
  · rwa [hevery, hphase] at hreadable

/-- A try at a window has rows, or the store does not know one of the group fields. -/
theorem Runnable.outcome (h : a.Runnable memory) (hd : a.Running d) (hmem : window ∈ a.windows) :
    let outcome := (memory.answer (a.request (Windows.clip a.range window) d.tree)).bind (rowsOf d)
    (∃ rows, outcome = .ok rows) ∨
      ∃ field ∈ d.grouping, outcome = .error (.rows (.fieldUnknown field)) := by
  intro outcome
  obtain ⟨hlevels, hnames, hevery, hphase⟩ := hd
  have hfound : (a.found memory window).length < Word.unsignedLimit :=
    Nat.lt_of_le_of_lt (List.length_filter_le _ _) h.length_lt
  have hanswer := @MemoryStore.answer_counting memory a.indices _ (h.decides_clauses window)
    d.tree
  dsimp only at hanswer
  rw [h.filter_matched hmem] at hanswer
  have houtcome : outcome = (memory.answer ⟨a.indices, ((Query.counting
      ((Windows.clip a.range window).clause a.options.timeField :: a.filter.toList)).aggregate
        d.tree).toJson⟩).bind (rowsOf d) := rfl
  obtain ⟨results, aggregations, hresults, hnamed, hrows⟩ := hlevels.rowsOf_error h.size_lt hnames
    (by rw [hphase, hevery]; exact h.readable)
    (fun n offset hwidth hshift =>
      h.bucketed hmem n offset (hevery ▸ hwidth) (hphase ▸ hshift)) hfound
  rcases hanswer with ⟨-, hanswer⟩ | ⟨r, hrejected, -⟩ | ⟨results', hresults', hanswer⟩
  · rw [houtcome, hanswer]
    exact .inl ⟨[], rfl⟩
  · rw [hresults] at hrejected
    cases hrejected
  · obtain rfl : results = results' := Except.ok.inj (hresults.symm.trans hresults')
    have hrowsOf : outcome = rowsOf d ⟨(a.found memory window).length, [], aggregations⟩ := by
      rw [houtcome, hanswer, hnamed]
      rfl
    by_cases hne : a.found memory window = []
    · rw [hrowsOf, hne]
      exact .inl ⟨[], rfl⟩
    · have hcount : (a.found memory window).length ≠ 0 :=
        fun hzero => hne (List.length_eq_zero_iff.mp hzero)
      rw [hrowsOf, rowsOf, if_neg hcount]
      cases hsplit : d.rowsOf ⟨(a.found memory window).length, [], aggregations⟩ with
      | ok rows => exact .inl ⟨rows, rfl⟩
      | error e =>
          obtain ⟨field, hfield, rfl⟩ := hrows hne e hsplit
          exact .inr ⟨field, hfield, rfl⟩

theorem Runnable.searched (h : a.Runnable memory)
    {out : Except ReadError (List Members × Descriptor) × Session ScriptedStore}
    (hout : Searched a ScriptedStore.store (Windows.clip a.range window) d session out)
    (hsession : session.Answers memory) (hd : a.Running d) (hmem : window ∈ a.windows) :
    (∃ answer, out.1 = .ok answer) ∧ out.2.Answers memory := by
  induction hout with
  | rows reply => exact ⟨⟨_, rfl⟩, (answer_of_reply hsession reply).2⟩
  | failed reply known =>
      obtain ⟨hreply, -⟩ := answer_of_reply hsession reply
      rcases h.outcome hd hmem with ⟨rows, hrows⟩ | ⟨field, hfield, herror⟩
      · cases hreply.trans hrows
      · cases hreply.trans herror
        exact absurd hfield (known field rfl)
  | again reply _ removed _ ih =>
      exact ih ((answer_of_reply hsession reply).2.add .fieldRemovals 1) (hd.removeField? removed)

theorem Runnable.fetchWindow (h : a.Runnable memory) (hsession : session.Answers memory)
    (hd : a.Running d) (hmem : window ∈ a.windows) :
    ∃ answer session', a.fetchWindow ScriptedStore.store (Windows.clip a.range window) d session =
      (.ok answer, session') ∧ session'.Answers memory := by
  obtain ⟨⟨answer, hanswer⟩, hafter⟩ := h.searched (a.searched _ _ _ _) hsession hd hmem
  exact ⟨answer, _, Prod.ext hanswer rfl, hafter⟩

theorem Runnable.fetchWindows (h : a.Runnable memory) (hsession : session.Answers memory)
    (hwindows : windows ⊆ a.windows) :
    ∃ results session', a.fetchWindows ScriptedStore.store windows session = (results, session') ∧
      session'.Answers memory ∧ ∀ result ∈ results, ∃ answer, result = .ok answer := by
  induction windows generalizing session with
  | nil => exact ⟨[], session, rfl, hsession, nofun⟩
  | cons window windows ih =>
      obtain ⟨hmem, hrest⟩ := List.cons_subset.mp hwindows
      obtain ⟨answer, session₁, hwindow, hsession₁⟩ := h.fetchWindow hsession h.running hmem
      obtain ⟨results, session₂, hwindows, hsession₂, hall⟩ := ih hsession₁ hrest
      rw [Aggregator.fetchWindows, hwindow]
      simp only [hwindows]
      exact ⟨_, session₂, rfl, hsession₂, List.forall_mem_cons.mpr ⟨⟨answer, rfl⟩, hall⟩⟩

theorem receiveWindow_without (a : Aggregator) (index : Nat) (window : Moment × Moment)
    (logs : List Members) (used : Descriptor) :
    ∃ last, (a.receiveWindow index window logs used).2.2 =
      a.having (a.descriptor.without a.options.sizes used.emptyFields) a.next last := by
  have hwindow := a.receiveWindow_having a.descriptor a.next a.lastRowWindow index window logs used
  rw [show a.having a.descriptor a.next a.lastRowWindow = a from rfl] at hwindow
  rw [hwindow]
  dsimp only
  split
  · exact ⟨a.lastRowWindow, rfl⟩
  · split
    · exact ⟨a.lastRowWindow, rfl⟩
    · exact ⟨some index, rfl⟩

theorem Runnable.receive (h : a.Runnable memory) (hsession : session.Answers memory) (index : Nat)
    {results : List ((Moment × Moment) × Except ReadError (List Members × Descriptor))}
    (hall : ∀ result ∈ results, ∃ answer, result.2 = .ok answer) :
    ∃ rows c last session', a.receive session index results =
      (.ok rows, a.having c a.next last, session') ∧ a.Running c ∧ session'.Answers memory := by
  induction results generalizing a session index with
  | nil => exact ⟨[], a.descriptor, a.lastRowWindow, session, rfl, h.running, hsession⟩
  | cons result results ih =>
      obtain ⟨window, result⟩ := result
      obtain ⟨⟨⟨logs, used⟩, rfl⟩, hrest⟩ := List.forall_mem_cons.mp hall
      obtain ⟨last, hwindow⟩ := a.receiveWindow_without index window logs used
      have hrunning := h.running.without used.emptyFields
      obtain ⟨rows, c, last', session', hreceive, hc, hsession'⟩ :=
        ih (h.having hrunning a.next last) (hsession.add .backfilledRows
          (a.receiveWindow index window logs used).2.1) (index + 1) hrest
      rw [receive_ok]
      simp only [hwindow, hreceive]
      exact ⟨_, c, last', session', rfl,
        ⟨hc.levels, hc.names, hc.every.trans hrunning.every, hc.phase.trans hrunning.phase⟩,
        hsession'⟩

/-- A fetch has rows, and the windows behind it can be run. -/
theorem Runnable.fetch (h : a.Runnable memory) (hsession : session.Answers memory) :
    ∃ batch c next last session', a.fetch ScriptedStore.store session =
      (.ok batch, a.having c next last, session') ∧ a.Running c ∧ session'.Answers memory ∧
      (batch.eof = false → a.next < next ∧ next < a.windows.length) := by
  by_cases hend : a.windows.length ≤ a.next
  · exact ⟨⟨[], true⟩, a.descriptor, a.next, a.lastRowWindow, session,
      fetch_end ScriptedStore.store session hend, h.running, hsession, nofun⟩
  · have hsubset : a.batch ⊆ a.windows :=
      List.Subset.trans (List.take_subset _ _) (List.drop_subset _ _)
    have hlength : 0 < a.batch.length := by
      rw [batch, List.length_take, List.length_drop]
      omega
    obtain ⟨results, session₁, hwindows, hsession₁, hall⟩ := h.fetchWindows hsession hsubset
    have hzip : ∀ result ∈ a.batch.zip results, ∃ answer, result.2 = .ok answer :=
      fun result hmem => hall result.2 (List.of_mem_zip hmem).2
    obtain ⟨rows, c, last, session₂, hreceive, hc, hsession₂⟩ :=
      h.receive hsession₁ a.next hzip
    have hattempt : a.attempt ScriptedStore.store session =
        (.ok rows, a.having c a.next last, session₂) := by
      rw [attempt, hwindows]
      exact hreceive
    rw [fetch_next _ session hend, hattempt]
    exact ⟨_, c, a.next + a.batch.length, last, _, rfl, hc, hsession₂.add _ _, fun hmore =>
      ⟨Nat.lt_add_of_pos_right hlength, Nat.lt_of_not_le (of_decide_eq_false hmore)⟩⟩

/-- A reduction that a memory can run ends without an error, in as many fetches as it has windows
and one more. -/
theorem Runnable.collect (h : a.Runnable memory) (hsession : session.Answers memory)
    {fetches : Nat} (hfetches : a.windows.length - a.next < fetches) :
    (Stream.collect (fun (a : Aggregator) session => a.fetch ScriptedStore.store session) fetches
      none a session).1.error = none := by
  induction fetches generalizing a session with
  | zero => exact absurd hfetches (Nat.not_lt_zero _)
  | succ fetches ih =>
      obtain ⟨⟨rows, eof⟩, c, next, last, session', hfetch, hc, hsession', hahead⟩ :=
        h.fetch hsession
      unfold Stream.collect
      simp only [reduceCtorEq, ↓reduceIte, hfetch]
      cases eof with
      | true => cases rows <;> rfl
      | false =>
          obtain ⟨hnext, hless⟩ := hahead rfl
          have hfewer : (a.having c next last).windows.length - next < fetches := by
            change a.windows.length - next < fetches
            omega
          have hrest := ih (h.having hc next last) hsession' hfewer
          cases rows with
          | nil => exact hrest
          | cons row rows => exact hrest

end Aggregator

/-! ## Accepted reductions -/

/-- A reduce step that a read takes over, as `d`, with a width and a shift of a year at most,
between 1970 and 9000. -/
structure Reduce.Accepted (memory : MemoryStore) (config : Config) (range : TimeRange)
    (filter : Option Json) (r : Reduce) (d : Descriptor) : Prop
    extends r.Pushed memory config range filter d where
  every : ∀ width ∈ r.every, width.Yearly
  phase : Windows.Shifts r.phase
  stop_lt : range.stop.nanos < Windows.horizon
  length_lt : (memory.searched config.indices).length < Word.unsignedLimit

namespace Reduce.Accepted

variable {memory : MemoryStore} {config : Config} {range : TimeRange} {filter : Option Json}
  {r : Reduce} {d : Descriptor}

theorem width (h : r.Accepted memory config range filter d) {width : Interval}
    (hwidth : width ∈ d.every) : width.Yearly ∧ ∃ n offset, width = .millis n ∧
      Windows.shift? d.phase width = .ok (some offset) := by
  obtain ⟨⟨⟨leaf, hleaf, -⟩, -⟩, -, hevery, -⟩ := h.levels
  have hyearly := h.every width (hevery ▸ hwidth)
  rw [Option.mem_def.mp hwidth] at hleaf
  cases hleaf with
  | @millis n offset _ hshift => exact ⟨hyearly, n, offset, rfl, hshift⟩

/-- A step that a read takes over starts, and the memory can run it if no inner group has the name
of something that buckets say of themselves. -/
theorem runnable_start (h : r.Accepted memory config range filter d)
    (hnames : ∀ field ∈ r.groupBy.tail, field ∉ Result.bucketKeys) :
    ∃ a, Aggregator.start? config.indices range d config.windowOptions filter = .ok a ∧
      a.Runnable memory ∧ a.next = 0 := by
  obtain ⟨hlevels, hgrouping, hevery, hphase⟩ := h.levels
  obtain ⟨boundaries, hboundaries⟩ :=
    Windows.exists_boundaries h.recent h.stop_lt fun _ => h.width
  have hplaced : (aggregator config range filter d boundaries).Placed memory := by
    refine h.placed (fun width hwidth => ?_) hboundaries
    obtain ⟨hyearly, n, -, rfl, -⟩ := h.width hwidth
    exact hyearly.fixed
  refine ⟨_, start?_aggregator config filter hboundaries, ?_, rfl⟩
  exact { hplaced with
    running := ⟨hlevels, hgrouping ▸ hnames, rfl, rfl⟩
    readable := by
      intro width hwidth
      obtain ⟨hyearly, n, offset, rfl, hshift⟩ := h.width hwidth
      have hshifts : Windows.Shifts d.phase := hphase ▸ h.phase
      exact ⟨n, offset, rfl, hshift, hyearly.readable, hshifts.readable hyearly hshift⟩
    size_lt := h.size_lt
    length_lt := h.length_lt }

/-- A reduction that a read takes over runs to its end without an error, whatever fields its windows
lack and whatever values they have, if no inner group has the name of something that buckets say of
themselves. -/
theorem collect_accepted {session : Session ScriptedStore}
    (h : r.Accepted memory config range filter d)
    (hnames : ∀ field ∈ r.groupBy.tail, field ∉ Result.bucketKeys)
    (hsession : session.Answers memory) :
    ∃ a, Aggregator.start? config.indices range d config.windowOptions filter = .ok a ∧
      ∀ fetches, a.windows.length < fetches →
        (Stream.collect (fun (a : Aggregator) session => a.fetch ScriptedStore.store session)
          fetches none a session).1.error = none := by
  obtain ⟨a, hstart, hrunnable, hnext⟩ := h.runnable_start hnames
  refine ⟨a, hstart, fun fetches hfetches => hrunnable.collect hsession ?_⟩
  rw [hnext]
  exact hfetches

/-- Minutes by key and host. The first one with documents has both, the second one no host. -/
theorem collect_accepted_hostless :
    let documents : List Members := [
      [("at", .text "2024-05-01T10:00:00Z"), ("key", .nat 1), ("host", .text "a")],
      [("at", .text "2024-05-01T12:01:00+02:00"), ("key", .list [])], [("key", .null)]]
    let memory : MemoryStore := ⟨[("logs", documents)], 10⟩
    let config : Config := { Config.ofUrl "http://store" with timeField := "at" }
    let range : TimeRange := ⟨.utc 1714557590000000000, .utc 1714557690000000000⟩
    let r : Reduce := ⟨[⟨.field "total", "count", []⟩], ["key", "host"], some (.millis 60000),
      some (.offset (.millis 30000)), none⟩
    ∃ d a, Plan.descriptor? (Plan.optionsOf config) r = .ok (some d) ∧
      Aggregator.start? config.indices range d config.windowOptions none = .ok a ∧
      (Stream.collect (fun (a : Aggregator) session => a.fetch ScriptedStore.store session) 3 none a
        ⟨⟨memory, [], []⟩, .zero⟩).1.error = none := by
  intro documents memory config range r
  let d : Descriptor := ⟨Tree.grouped ["key", "host"] (Tree.millisLevel "at" 60000 30000) .standard,
    some "total", [("total", .nat 0)], ["key", "host"], r.every, r.phase, []⟩
  let a : Aggregator := {
    indices := ["*"], filter := none, options := config.windowOptions, descriptor := d, range
    boundaries := [.utc 1714557570000000000, .utc 1714557630000000000, .utc 1714557690000000000]
    next := 0, lastRowWindow := none }
  have hplan : Plan.descriptor? (Plan.optionsOf config) r = .ok (some d) := by cbv
  have hstart : Aggregator.start? config.indices range d config.windowOptions none = .ok a := by cbv
  have hdocuments : memory.searched config.indices = documents := by cbv
  have haccepted : r.Accepted memory config range none d := {
    plan := hplan
    every := by
      rintro _ ⟨⟩
      exact ⟨⟨"1m", by cbv⟩, by rintro _ ⟨⟩; decide⟩
    phase := by
      refine ⟨?_, by rintro _ ⟨⟩⟩
      rintro _ ⟨⟩
      exact ⟨⟨"30s", by cbv⟩, by rintro _ ⟨⟩; decide⟩
    recent := ⟨by decide, ⟨by decide, by decide⟩, ⟨by decide, by decide⟩⟩
    stop_lt := by decide
    filter := by rintro _ ⟨⟩
    timed := by
      rw [hdocuments]
      intro document hmem
      simp only [documents, List.mem_cons, List.not_mem_nil, or_false] at hmem
      rcases hmem with rfl | rfl | rfl
      · exact .inr ⟨_, ⟨1714557600000000000, 0⟩, rfl, by decide +kernel⟩
      · exact .inr ⟨_, ⟨1714557660000000000, 120⟩, rfl, by decide +kernel⟩
      · exact .inl (by decide +kernel)
    size_lt := by decide
    length_lt := by
      rw [hdocuments]
      decide }
  have hsession : Session.Answers memory ⟨⟨memory, [], []⟩, .zero⟩ := ⟨rfl, rfl⟩
  obtain ⟨a', hstart', hend⟩ := haccepted.collect_accepted (by decide) hsession
  obtain rfl : a = a' := Except.ok.inj (hstart.symm.trans hstart')
  exact ⟨d, a, hplan, hstart, hend 3 (by decide)⟩

/-- A document by host and key: the bucket of the host says what its own key is where the keys inside
it should stand, and the stream fails. -/
theorem collect_accepted_shadowed :
    let documents : List Members := [
      [("at", .text "2024-05-01T10:00:00Z"), ("host", .text "a"), ("key", .text "k")]]
    let memory : MemoryStore := ⟨[("logs", documents)], 10⟩
    let config : Config :=
      { Config.ofUrl "http://store" with indices := ["logs"], timeField := "at", sizes := ⟨5, 5⟩ }
    let range : TimeRange := ⟨.utc 1714557600000000000, .utc 1714557660000000000⟩
    let r : Reduce := ⟨[⟨.field "total", "count", []⟩], ["host", "key"], none, none, none⟩
    ∃ d a, r.Accepted memory config range none d ∧ timeKey ∉ r.groupBy ∧
      Aggregator.start? config.indices range d config.windowOptions none = .ok a ∧
      a.windows.length = 1 ∧
      (Stream.collect (fun (a : Aggregator) session => a.fetch ScriptedStore.store session) 2 none a
        ⟨⟨memory, [], []⟩, .zero⟩).1.error = some (.rows (.levelMissing "key")) := by
  intro documents memory config range r
  let terms (field : String) : String × Json :=
    ("terms", .object [("field", .text field), ("size", .nat 5)])
  let tree : Members := [("host", .object [
    ("aggregations", .object [("key", .object [terms "key"])]), terms "host"])]
  let d : Descriptor :=
    ⟨tree, some "total", [("total", .nat 0)], ["host", "key"], none, none, []⟩
  have hdocuments : memory.searched config.indices = documents := by cbv
  have haccepted : r.Accepted memory config range none d := {
    plan := by cbv
    every := by rintro _ ⟨⟩
    phase := ⟨by rintro _ ⟨⟩, by rintro _ ⟨⟩⟩
    recent := ⟨by decide, ⟨by decide, by decide⟩, ⟨by decide, by decide⟩⟩
    stop_lt := by decide
    filter := by rintro _ ⟨⟩
    timed := by
      rw [hdocuments]
      intro document hmem
      obtain rfl : document = _ := List.mem_singleton.mp hmem
      exact .inr ⟨_, ⟨1714557600000000000, 0⟩, rfl, by decide +kernel⟩
    size_lt := by decide
    length_lt := by
      rw [hdocuments]
      decide }
  let a : Aggregator := {
    indices := ["logs"], filter := none, options := ⟨"at", 10, ⟨5, 5⟩⟩, descriptor := d, range
    boundaries := [range.start, range.stop], next := 0, lastRowWindow := none }
  have herror : (Stream.collect (fun (a : Aggregator) session => a.fetch ScriptedStore.store session)
      2 none a ⟨⟨memory, [], []⟩, .zero⟩).1.error = some (.rows (.levelMissing "key")) := by cbv
  exact ⟨d, a, haccepted, by decide, by cbv, by cbv, herror⟩

end Reduce.Accepted
end Sluice
