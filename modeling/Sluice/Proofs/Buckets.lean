import Sluice.Proofs.Groups
import Sluice.Proofs.Levels

/-!
The rows that come back for a tree of groups: the store's buckets, read one inside the other, are a
row for each tuple of values with the number of its documents.
-/
namespace Sluice

open Aggregation Grouping

theorem Members.get?_eq_none {key : String} {members : Members}
    (h : key ∉ members.map Prod.fst) : get? key members = none := by
  induction members with
  | nil => rfl
  | cons entry members ih =>
      obtain ⟨k, v⟩ := entry
      rw [List.map_cons, List.mem_cons, not_or] at h
      rw [get?, if_neg (Ne.symm h.1), ih h.2]

/-! ## Reading buckets -/

theorem Json.eq_of_unsigned?_nat {n m : Nat} (h : (Json.nat n).unsigned? = some m) : m = n := by
  simp only [Json.nat, Json.unsigned?] at h
  split at h
  · simpa using h.symm
  · cases h

namespace Result

/-- What a bucket says of itself is no result. -/
theorem subOf?_insert {key : String} (h : key ∈ bucketKeys) (value : Json) (members : Members) :
    subOf? (Members.insert key value members) = subOf? members := by
  induction members with
  | nil =>
      rw [Members.insert, subOf?]
      exact if_pos h
  | cons entry members ih =>
      obtain ⟨k, v⟩ := entry
      rw [Members.insert]
      split
      · rw [subOf?, if_pos h]
      · split
        · rename_i heq
          subst heq
          rw [subOf?, subOf?, if_pos h, if_pos h]
        · rw [subOf?, subOf?, ih]

/-- The members of a bucket as the store writes it. -/
def bucketMembers (key : Json) (keyText : Option String) (count : Nat) (results : Members) :
    Members :=
  Members.insert "doc_count" (.nat count)
    ((keyText.map Json.text).elim (Members.insert "key" key results) fun text =>
      Members.insert "key_as_string" text (Members.insert "key" key results))

theorem bucketJson_eq (key : Json) (keyText : Option String) (count : Nat) (results : Members) :
    bucketJson key keyText count results =
      .object (bucketMembers key keyText count results) := by
  cases keyText <;> rfl

variable {key : Json} {keyText : Option String} {count : Nat} {results : Members}

theorem get?_bucketMembers_key :
    Members.get? "key" (bucketMembers key keyText count results) = some key := by
  rw [bucketMembers, Members.get?_insert_of_ne _ _ (by decide)]
  cases keyText with
  | none => exact Members.get?_insert_self _ _ _
  | some text =>
      exact (Members.get?_insert_of_ne _ _ (by decide)).trans (Members.get?_insert_self _ _ _)

theorem get?_bucketMembers_count :
    Members.get? "doc_count" (bucketMembers key keyText count results) = some (.nat count) :=
  Members.get?_insert_self _ _ _

theorem get?_bucketMembers_keyText (hname : Members.get? "key_as_string" results = none) :
    Members.get? "key_as_string" (bucketMembers key keyText count results) =
      keyText.map Json.text := by
  rw [bucketMembers, Members.get?_insert_of_ne _ _ (by decide)]
  cases keyText with
  | none => exact (Members.get?_insert_of_ne _ _ (by decide)).trans hname
  | some text => exact Members.get?_insert_self _ _ _

theorem subOf?_bucketMembers :
    subOf? (bucketMembers key keyText count results) = subOf? results := by
  rw [bucketMembers, subOf?_insert (by decide)]
  cases keyText with
  | none => exact subOf?_insert (by decide) _ _
  | some text => exact (subOf?_insert (by decide) _ _).trans (subOf?_insert (by decide) _ _)

theorem bucketsOf?_cons_bucketJson {rest : List Json}
    (hname : Members.get? "key_as_string" results = none) :
    bucketsOf? (bucketJson key keyText count results :: rest) =
      (Json.nat count).unsigned?.bind fun count => (subOf? results).bind fun sub =>
        (bucketsOf? rest).map (.mk key keyText count sub :: ·) := by
  have htext : Json.nullable? (bucketMembers key keyText count results) "key_as_string"
      Json.text? = some keyText := by
    rw [Json.nullable?, get?_bucketMembers_keyText hname]
    cases keyText <;> rfl
  rw [bucketJson_eq, bucketsOf?, htext, get?_bucketMembers_key, Json.required?,
    get?_bucketMembers_count, subOf?_bucketMembers, Option.bind_some]
  cases (Json.nat count).unsigned? with
  | none => rfl
  | some count =>
      cases subOf? results with
      | none => rfl
      | some sub => cases bucketsOf? rest <;> rfl

theorem bucketsOf?_bucketJson {rest : List Json} {buckets : List Bucket}
    (hname : Members.get? "key_as_string" results = none)
    (h : bucketsOf? (bucketJson key keyText count results :: rest) = some buckets) :
    ∃ sub rest', buckets = .mk key keyText count sub :: rest' ∧ subOf? results = some sub ∧
      bucketsOf? rest = some rest' := by
  rw [bucketsOf?_cons_bucketJson hname] at h
  obtain ⟨m, hcount, h⟩ := Option.bind_eq_some_iff.mp h
  obtain ⟨sub, hsub, h⟩ := Option.bind_eq_some_iff.mp h
  obtain ⟨rest', hrest, rfl⟩ := Option.map_eq_some_iff.mp h
  obtain rfl := Json.eq_of_unsigned?_nat hcount
  exact ⟨sub, rest', rfl, hsub, hrest⟩

/-- A bucket as it is read for a group, with the results inside it. -/
structure BucketFor (answers : List Members → Members → Prop) (group : Json × List Members)
    (bucket : Bucket) : Prop where
  key : bucket.key = group.1
  count : bucket.count = group.2.length
  inside : ∃ results, answers group.2 results ∧ subOf? results = some bucket.sub

theorem forall₂_bucketsOf? (answers : List Members → Members → Prop)
    {groups : List (Json × List Members)} {items : List Json} {buckets : List Bucket}
    (hname : ∀ members results, answers members results →
      Members.get? "key_as_string" results = none)
    (hitems : List.Forall₂ (fun group item => ∃ results, answers group.2 results ∧
      item = bucketJson group.1 none group.2.length results) groups items)
    (h : bucketsOf? items = some buckets) :
    List.Forall₂ (BucketFor answers) groups buckets := by
  induction hitems generalizing buckets with
  | nil =>
      cases h
      exact .nil
  | cons hitem _ ih =>
      obtain ⟨results, hanswers, rfl⟩ := hitem
      obtain ⟨sub, rest, rfl, hsub, hrest⟩ := bucketsOf?_bucketJson (hname _ _ hanswers) h
      exact .cons ⟨rfl, rfl, results, hanswers, hsub⟩ (ih hrest)

/-- A level of buckets is read as its buckets. -/
theorem subOf?_level {name : String} (hname : name ∉ bucketKeys) {items : List Json}
    {more : Members} (hvalue : Members.get? "value" more = none) {aggregations : Results}
    (h : subOf? [(name, .object (("buckets", .list items) :: more))] = some aggregations) :
    ∃ buckets, bucketsOf? items = some buckets ∧ aggregations = [(name, .buckets buckets)] := by
  have hnone : Members.get? "value" (("buckets", .list items) :: more) = none := by
    rw [Members.get?, if_neg (by decide), hvalue]
  rw [subOf?, if_neg hname, ofJson?, hnone] at h
  simp only [bucketsIn?, ↓reduceIte] at h
  cases hbuckets : bucketsOf? items with
  | none =>
      rw [hbuckets] at h
      cases h
  | some buckets =>
      rw [hbuckets] at h
      cases h
      exact ⟨buckets, rfl, rfl⟩

theorem named?_object {members : Members} (h : ∀ name ∈ members.map Prod.fst, name ∉ bucketKeys) :
    named? (.object members) = subOf? members := by
  rw [named?, Json.object?]
  simp only [bind, Option.bind]
  induction members with
  | nil => rfl
  | cons entry members ih =>
      obtain ⟨k, v⟩ := entry
      have hk := h k List.mem_cons_self
      have hrest := ih fun name hname => h name (List.mem_cons_of_mem _ hname)
      rw [List.mapM_cons, hrest, subOf?, if_neg hk]
      cases ofJson? v <;> rfl

end Result

/-! ## Time buckets -/

/-- Documents whose times fall into one bucket of `width` milliseconds, which starts at `first`. -/
def Bucketed (timeField : String) (width offset : Int) (first : Moment) (documents : List Members) :
    Prop :=
  ∃ start, Moment.ofMillis start = .ok first ∧ ∀ document ∈ documents, ∃ m,
    Document.time? timeField document = some m ∧
      Moment.floorMillis? m.toMillis width offset = some start

theorem Bucketed.mono {timeField : String} {width offset : Int} {first : Moment}
    {documents documents' : List Members} (h : Bucketed timeField width offset first documents)
    (hsubset : documents' ⊆ documents) : Bucketed timeField width offset first documents' := by
  obtain ⟨start, hstart, hdocuments⟩ := h
  exact ⟨start, hstart, fun document hdocument => hdocuments document (hsubset hdocument)⟩

namespace Aggregation

theorem keyByTime_eq_map {field : String} {width offset : Nat} {start : Int}
    {documents : List Members} (h : ∀ document ∈ documents, ∃ m,
      Document.time? field document = some m ∧
        Moment.floorMillis? m.toMillis width offset = some start) :
    keyByTime field width offset documents = documents.map (start, ·) := by
  induction documents with
  | nil => rfl
  | cons document documents ih =>
      obtain ⟨m, hm, hstart⟩ := h document List.mem_cons_self
      have hrest := ih fun d hd => h d (List.mem_cons_of_mem _ hd)
      rw [Document.time?] at hm
      simp only [keyByTime] at hrest ⊢
      rw [List.filterMap_cons_some (b := (start, document)), hrest, List.map_cons]
      simp [hm, hstart]

theorem bucketStarts_replicate (width n : Nat) (start : Int) :
    bucketStarts width (List.replicate (n + 1) start) = [start] := by
  simp [bucketStarts]

theorem evaluate_histogram {field : String} {width offset : Nat} {start : Int}
    {documents : List Members} (hne : documents ≠ []) (h : ∀ document ∈ documents, ∃ m,
      Document.time? field document = some m ∧
        Moment.floorMillis? m.toMillis width offset = some start) :
    evaluate (.histogram field width offset 0 []) documents =
      .ok (.object [("buckets", .list [bucketJson (.int start)
        ((Moment.ofMillis start).toOption.map Moment.format) documents.length []])]) := by
  obtain ⟨n, hn⟩ : ∃ n, documents.length = n + 1 := by
    cases documents with
    | nil => exact absurd rfl hne
    | cons document documents => exact ⟨documents.length, rfl⟩
  have hkeys : (documents.map (start, ·)).map Prod.fst = List.replicate (n + 1) start := by
    rw [List.map_map, ← hn]
    exact List.map_const' ..
  have hall : ((documents.map (start, ·)).filter (·.1 = start)).map Prod.snd = documents := by
    simp [List.filter_map, Function.comp_def]
  rw [evaluate, keyByTime_eq_map h]
  simp only [hkeys, bucketStarts_replicate, List.map_cons, List.map_nil, hall]
  simp [evaluateAll]

end Aggregation

/-! ## Rows of a tree -/

namespace Descriptor

variable {d : Descriptor} {timeField target : String} {size : Nat} {documents : List Members}

/-- Windows of a width that the store can read are its time buckets: it puts the documents into the
one that starts at `first`. -/
def BucketedAt (d : Descriptor) (timeField : String) (first : Moment) (documents : List Members) :
    Prop :=
  ∀ n offset, d.every = some (.millis n) →
    Windows.shift? d.phase (.millis n) = .ok (some offset) → Duration.Readable n →
      Duration.Readable offset → Bucketed timeField n offset first documents

theorem BucketedAt.mono {first : Moment} {documents' : List Members}
    (h : d.BucketedAt timeField first documents) (hsubset : documents' ⊆ documents) :
    d.BucketedAt timeField first documents' :=
  fun n offset hevery hshift hn hoffset => (h n offset hevery hshift hn hoffset).mono hsubset

theorem Counts.leafRow (h : d.Counts timeField target size) (count : Nat)
    (path : List (String × Json)) :
    d.leafRow [] count path = Members.ofList ((target, .nat count) :: path) := by
  simp [Descriptor.leafRow, h.countField, h.emptyFields]

/-- The levels of time buckets below the groups. -/
def timeLevels (every : Option Interval) : List String := if every.isSome then [timeKey] else []

/-- What time buckets add to the keys of a row. -/
def timePath (every : Option Interval) (first : Moment) : List (String × Json) :=
  if every.isSome then [(timeKey, .text first.format)] else []

theorem bucketKey_time {start : Int} {first : Moment} (h : Moment.ofMillis start = .ok first)
    (keyText : Option String) (count : Nat) (sub : Results) :
    bucketKey true timeKey (.mk (.int start) keyText count sub) = .ok (.text first.format) := by
  have hkey : (Json.int start).signed? = some start := by
    rw [Json.int, Json.signed?, if_pos (Moment.fitsSigned_of_ofMillis h)]
  simp only [bucketKey, isTimeLevel, Bool.true_and, decide_true, ↓reduceIte, timeOfBucket,
    Bucket.key, hkey, h]
  rfl

/-- Inside the groups, documents of one window have one row. -/
theorem rowsBelow_leaf (d : Descriptor) {leaf : Members} {first : Moment}
    (hleaf : Tree.Leaf timeField d.phase d.every leaf) (hne : documents ≠ [])
    (hbucketed : d.BucketedAt timeField first documents)
    {results : Members} {aggregations : Results}
    (hresults : evaluateAll (ofMembers leaf) documents = .ok results)
    (haggregations : Result.subOf? results = some aggregations) (path : List (String × Json)) :
    d.rowsBelow d.every.isSome (timeLevels d.every) aggregations documents.length path =
      .ok [d.leafRow [] documents.length (path ++ timePath d.every first)] := by
  generalize hevery : d.every = every at *
  cases hleaf with
  | whole =>
      cases hresults
      cases haggregations
      rw [Option.isSome_none, timeLevels, timePath]
      simp only [Option.isSome_none, Bool.false_eq_true, ↓reduceIte, List.append_nil, rowsBelow,
        Bool.false_and]
  | @millis n offset hpos hshift =>
      by_cases hreadable : Duration.Readable n ∧ Duration.Readable offset
      · obtain ⟨hn, hoffset⟩ := hreadable
        obtain ⟨start, hstart, hdocuments⟩ := hbucketed n offset hevery hshift hn hoffset
        have hwidth : (n.toNat : Int) = n := Int.toNat_of_nonneg hn.1
        have hshifted : (offset.toNat : Int) = offset := Int.toNat_of_nonneg hoffset.1
        have hevaluate := @evaluate_histogram timeField n.toNat offset.toNat start documents hne (by
          rw [hwidth, hshifted]
          exact hdocuments)
        rw [ofMembers_millisLevel_of_readable hpos hn hoffset, evaluateAll, hevaluate, ok_bind]
          at hresults
        cases hresults
        obtain ⟨buckets, hbuckets, rfl⟩ := Result.subOf?_level (by decide) rfl haggregations
        obtain ⟨sub, rest, rfl, hsub, hrest⟩ := Result.bucketsOf?_bucketJson rfl hbuckets
        cases hsub
        cases hrest
        have hcount : documents.length ≠ 0 := fun hzero => hne (List.length_eq_zero_iff.mp hzero)
        rw [Option.isSome_some, timeLevels, timePath]
        simp only [Option.isSome_some, ↓reduceIte, rowsBelow, List.lookup_cons, beq_self_eq_true,
          List.mapM_cons, List.mapM_nil, bucketKey_time hstart, ok_bind, Bucket.sub, Bucket.count,
          hcount, decide_false, Bool.and_false, Bool.false_eq_true]
        rfl
      · obtain ⟨_, _, _, hrejected⟩ := @ofMembers_millisLevel_of_not_readable timeField n offset
          hpos hreadable
        rw [hrejected] at hresults
        cases hresults

/-- The row of a tuple of values of group fields, before it gets the time of its window. -/
def tupleRow (target : String) (grouping : List String) (documents : List Members)
    (behind path : List (String × Json)) (values : List Json) : Members :=
  Members.ofList ((target, .nat (count grouping documents values)) ::
    (path ++ grouping.zip values ++ behind))

theorem tupleRow_cons {field : String} {grouping : List String} {behind path : List (String × Json)}
    (value : Json) (values : List Json) :
    tupleRow target (field :: grouping) documents behind path (value :: values) =
      tupleRow target grouping (documents.filter (Document.textOf field · = some value.render))
        behind (path ++ [(field, value)]) values := by
  rw [tupleRow, tupleRow, count_cons, List.zip_cons_cons, List.append_assoc path [(field, value)]]
  rfl

theorem rowsBelow_buckets {timeBucketed : Bool} {key : String} {buckets : List Bucket}
    (hne : buckets ≠ []) (keys : List String) (total : Nat) (path : List (String × Json)) :
    d.rowsBelow timeBucketed (key :: keys) [(key, .buckets buckets)] total path =
      (buckets.mapM fun bucket => bucketKey timeBucketed key bucket >>= fun value =>
        d.rowsBelow timeBucketed keys bucket.sub bucket.count (path ++ [(key, value)])) >>=
          fun rows => pure rows.flatten := by
  cases buckets with
  | nil => exact absurd rfl hne
  | cons bucket buckets => simp only [rowsBelow, List.lookup_cons, beq_self_eq_true]

theorem keys_of_evaluateAll {aggregations : List (String × Aggregation)} {results : Members}
    (h : evaluateAll aggregations documents = .ok results) :
    results.map Prod.fst = aggregations.map Prod.fst := by
  induction aggregations generalizing results with
  | nil =>
      cases h
      rfl
  | cons aggregation aggregations ih =>
      rw [evaluateAll] at h
      obtain ⟨result, -, h⟩ := bind_eq_ok.mp h
      obtain ⟨rest, hrest, h⟩ := bind_eq_ok.mp h
      cases h
      rw [List.map_cons, List.map_cons, ih hrest]

theorem map_fst_ofMembers (tree : Members) :
    (ofMembers tree).map Prod.fst = tree.map Prod.fst := by
  induction tree with
  | nil => rfl
  | cons node tree ih =>
      rw [ofMembers, List.map_cons, List.map_cons, ih]

/-- The names of the levels of a tree are not those of what buckets say of themselves. -/
theorem name_of_level {every : Option Interval} {phase : Option Phase} {leaf : Members}
    (hleaf : Tree.Leaf timeField phase every leaf) {grouping : List String}
    (hnames : ∀ field ∈ grouping, field ∉ Result.bucketKeys) :
    ∀ name ∈ (grouping.foldr (Tree.groupLevel size) leaf).map Prod.fst,
      name ∉ Result.bucketKeys := by
  cases grouping with
  | nil =>
      cases hleaf with
      | whole => exact fun _ hname => nomatch hname
      | millis => simp [Tree.millisLevel, Result.bucketKeys, timeKey]
  | cons field grouping =>
      intro name hname
      obtain rfl : name = field := by simpa [Tree.groupLevel] using hname
      exact hnames name List.mem_cons_self

/-- The bucket of a group of documents. -/
def groupBucket (sub : List (String × Aggregation)) (group : Json × List Members) :
    Except Rejection Json := do
  return bucketJson group.1 none group.2.length (← evaluateAll sub group.2)

theorem evaluate_terms_eq_ok {field : String} {sub : List (String × Aggregation)} {result : Json}
    (h : evaluate (.terms field size sub) documents = .ok result) :
    ∃ items more, result = .object (("buckets", .list items) :: more) ∧
      Members.get? "value" more = none ∧
      ((sortGroups (groupByField field documents)).take size).mapM (groupBucket sub) =
        .ok items := by
  rw [evaluate] at h
  obtain ⟨items, hitems, h⟩ := bind_eq_ok.mp h
  cases h
  exact ⟨items, _, rfl, rfl, hitems⟩

/-- The buckets of a level are read as its groups, with what stands inside them. -/
theorem forall₂_level {every : Option Interval} {phase : Option Phase} {leaf : Members}
    (hleaf : Tree.Leaf timeField phase every leaf) {grouping : List String}
    (hnames : ∀ name ∈ grouping, name ∉ Result.bucketKeys) {groups : List (Json × List Members)}
    {items : List Json}
    (hitems : groups.mapM (groupBucket (ofMembers (grouping.foldr (Tree.groupLevel size) leaf))) =
      .ok items)
    {buckets : List Bucket} (hbuckets : Result.bucketsOf? items = some buckets) :
    List.Forall₂ (Result.BucketFor fun members results =>
      evaluateAll (ofMembers (grouping.foldr (Tree.groupLevel size) leaf)) members =
        .ok results) groups buckets := by
  refine Result.forall₂_bucketsOf? _ (fun members results hinside => ?_)
    ((forall₂_of_mapM_eq_ok hitems).imp fun group item hitem => ?_) hbuckets
  · refine Members.get?_eq_none fun hmem => ?_
    rw [keys_of_evaluateAll hinside, map_fst_ofMembers] at hmem
    exact name_of_level hleaf hnames _ hmem (by decide)
  · obtain ⟨results, hinside, hitem⟩ := bind_eq_ok.mp hitem
    cases hitem
    exact ⟨results, hinside, rfl⟩

theorem buckets_of_level (hsize : size < Word.unsignedLimit) {every : Option Interval}
    {phase : Option Phase} {leaf : Members} (hleaf : Tree.Leaf timeField phase every leaf)
    {field : String} (hfield : field ∉ Result.bucketKeys) {grouping : List String}
    (hnames : ∀ name ∈ grouping, name ∉ Result.bucketKeys) {results : Members}
    {aggregations : Results}
    (hresults : evaluateAll (ofMembers ((field :: grouping).foldr (Tree.groupLevel size) leaf))
      documents = .ok results)
    (haggregations : Result.subOf? results = some aggregations) :
    ∃ buckets, aggregations = [(field, .buckets buckets)] ∧
      List.Forall₂ (Result.BucketFor fun members results =>
        evaluateAll (ofMembers (grouping.foldr (Tree.groupLevel size) leaf)) members =
          .ok results) ((sortGroups (groupByField field documents)).take size) buckets := by
  rw [List.foldr_cons, ofMembers_groupLevel hsize, evaluateAll] at hresults
  obtain ⟨result, hresult, hresults⟩ := bind_eq_ok.mp hresults
  cases hresults
  obtain ⟨items, more, rfl, hvalue, hitems⟩ := evaluate_terms_eq_ok hresult
  obtain ⟨buckets, hbuckets, rfl⟩ := Result.subOf?_level hfield hvalue haggregations
  exact ⟨buckets, rfl, forall₂_level hleaf hnames hitems hbuckets⟩

theorem bucketKey_of_ne {timeBucketed : Bool} {key : String} (h : key ≠ timeKey)
    (bucket : Bucket) : bucketKey timeBucketed key bucket = .ok bucket.key := by
  simp only [bucketKey, isTimeLevel, h, decide_false, Bool.and_false, Bool.false_eq_true,
    ↓reduceIte]
  rfl

/-- Groups are read back as the rows of their tuples of values. -/
theorem Counts.rowsBelow_grouped (h : d.Counts timeField target size)
    (hsize : size < Word.unsignedLimit) {leaf : Members} {first : Moment}
    (hleaf : Tree.Leaf timeField d.phase d.every leaf)
    (hbucketed : d.BucketedAt timeField first documents)
    {grouping : List String}
    (hnames : ∀ field ∈ grouping, field ∉ Result.bucketKeys ∧ field ≠ timeKey)
    (hne : documents ≠ []) (hpresent : Present grouping documents)
    (hfits : Fits size grouping documents) {results : Members} {aggregations : Results}
    (hresults : evaluateAll (ofMembers (grouping.foldr (Tree.groupLevel size) leaf)) documents =
      .ok results)
    (haggregations : Result.subOf? results = some aggregations) (path : List (String × Json)) :
    d.rowsBelow d.every.isSome (grouping ++ timeLevels d.every) aggregations documents.length path =
      .ok ((tuples grouping documents).map
        (tupleRow target grouping documents (timePath d.every first) path)) := by
  induction grouping generalizing documents results aggregations path with
  | nil =>
      have hrow := d.rowsBelow_leaf hleaf hne hbucketed hresults haggregations path
      rw [List.nil_append, hrow, h.leafRow, tuples, if_neg (by simpa using hne),
        List.map_singleton, tupleRow, count_nil, List.zip_nil_left, List.append_nil]
  | cons field grouping ih =>
      obtain ⟨hfield, htime⟩ := hnames field List.mem_cons_self
      have hinner := fun name hname => hnames name (List.mem_cons_of_mem field hname)
      have hgroups := groups_sortGroups field documents
      have htake : (sortGroups (groupByField field documents)).take size =
          sortGroups (groupByField field documents) :=
        List.take_of_length_le (by rw [length_sortGroups]; exact hfits.1)
      obtain ⟨buckets, rfl, hforall⟩ := buckets_of_level hsize hleaf hfield
        (fun name hname => (hinner name hname).1) hresults haggregations
      rw [htake] at hforall
      have hsome : buckets ≠ [] := by
        rintro rfl
        rw [List.forall₂_nil_right_iff] at hforall
        obtain ⟨document, hdocument⟩ := List.exists_mem_of_ne_nil _ hne
        obtain ⟨value, hvalue⟩ := Option.isSome_iff_exists.mp
          (hpresent document hdocument field List.mem_cons_self)
        have hmem := (hgroups.mem_iff value.render).mpr
          ⟨document, hdocument, by rw [Document.textOf, hvalue, Option.map_some]⟩
        rw [hforall] at hmem
        cases hmem
      have hrows := @mapM_eq_ok_map_of_forall₂ _ _ _ _ (fun bucket : Bucket =>
          bucketKey d.every.isSome field bucket >>= fun value =>
            d.rowsBelow d.every.isSome (grouping ++ timeLevels d.every) bucket.sub bucket.count
              (path ++ [(field, value)]))
        (fun group : Json × List Members => (tuples grouping group.2).map
          (tupleRow target grouping group.2 (timePath d.every first) (path ++ [(field, group.1)])))
        _ _ _ hforall (by
          rintro group hgroup bucket ⟨hkey, hcount, results, hinside, hsub⟩
          have hmembers := hgroups.members group hgroup
          have hsubset : group.2 ⊆ documents := by
            rw [hmembers]
            exact List.filter_subset_self _
          rw [bucketKey_of_ne htime, ok_bind, hkey, hcount]
          refine ih (hbucketed.mono hsubset) hinner (hgroups.ne_nil hgroup) ?_ ?_ hinside hsub _
          · rw [hmembers]
            exact hpresent.group _
          · rw [hmembers]
            exact hfits.2 _)
      rw [List.cons_append, rowsBelow_buckets hsome, hrows, ok_bind, tuples, List.map_flatMap]
      refine congrArg Except.ok (congrArg List.flatten (List.map_congr_left fun group hgroup => ?_))
      rw [List.map_map]
      refine List.map_congr_left fun values _ => ?_
      rw [Function.comp_apply, tupleRow_cons, ← hgroups.members group hgroup]

end Descriptor
end Sluice
