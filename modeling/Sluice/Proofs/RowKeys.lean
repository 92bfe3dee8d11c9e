import Sluice.Proofs.AnsweredCounts
import Sluice.Proofs.Flattening
import Sluice.Proofs.LostFields
import Sluice.Proofs.WindowStreams

/-!
The keys of the rows of a reduction. Whatever fields are lost on the way, and whichever window a row
stands for, it has all fields that were asked for and nothing else.
-/
namespace Sluice

open Aggregation

/-! ## Keys of rows -/

theorem Members.mem_keys_insert {key other : String} {value : Json} {members : Members} :
    key ∈ keys (insert other value members) ↔ key = other ∨ key ∈ keys members := by
  induction members with
  | nil => simp [insert, keys]
  | cons entry members ih =>
      obtain ⟨k, v⟩ := entry
      rw [insert]
      split
      · simp [keys]
      · split
        · rename_i heq
          simp [keys, heq]
        · simp only [keys, List.map_cons, List.mem_cons] at ih ⊢
          rw [ih, or_left_comm]

theorem Members.mem_keys_ofList {key : String} {bindings : List (String × Json)} :
    key ∈ keys (ofList bindings) ↔ key ∈ bindings.map Prod.fst := by
  induction bindings using List.reverseRecOn with
  | nil => rfl
  | append_singleton bindings binding ih =>
      obtain ⟨name, value⟩ := binding
      rw [ofList_concat, mem_keys_insert, ih, List.map_append, List.mem_append, or_comm]
      simp

namespace Descriptor

variable {d fewer : Descriptor} {keys fields : List String} {results : Results} {count : Nat}
  {target : Option String} {key field : String}

theorem mem_keys_leafRow {path : List (String × Json)} :
    key ∈ Members.keys (d.leafRow [] count path) ↔
      d.countField = some key ∨ key ∈ d.emptyFields ∨ key ∈ path.map Prod.fst := by
  rw [leafRow, Members.mem_keys_ofList]
  cases d.countField with
  | none => simp
  | some name => simp [eq_comm]

theorem map_fst_path_of_mem_leaves {leaf : Leaf} (h : leaf ∈ leaves keys results count) :
    leaf.path.map Prod.fst = keys := by
  induction keys generalizing results count leaf with
  | nil =>
      obtain rfl : leaf = _ := List.mem_singleton.mp h
      rfl
  | cons key keys ih =>
      obtain ⟨bucket, -, hleaf⟩ := List.mem_flatMap.mp h
      obtain ⟨below, hbelow, rfl⟩ := List.mem_map.mp hleaf
      exact congrArg (key :: ·) (ih hbelow)

theorem mem_sortByTime {row : Members} {rows : List Members} :
    row ∈ sortByTime rows ↔ row ∈ rows := by
  rw [sortByTime_eq]
  split
  · exact (List.mergeSort_perm _ _).mem_iff
  · rfl

/-- Results whose leaves have nothing in them. -/
def Bare (keys : List String) (results : Results) : Prop :=
  ∀ count, ∀ leaf ∈ leaves keys results count, leaf.results = []

theorem bare_cons (h : ∀ bucket ∈ bucketsAt key results, Bare keys bucket.sub) :
    Bare (key :: keys) results := by
  intro count leaf hleaf
  obtain ⟨bucket, hbucket, hleaf⟩ := List.mem_flatMap.mp hleaf
  obtain ⟨below, hbelow, rfl⟩ := List.mem_map.mp hleaf
  exact h bucket hbucket bucket.count below hbelow

theorem bare_nil (keys : List String) : Bare keys [] := by
  cases keys with
  | nil =>
      intro count leaf hleaf
      obtain rfl : leaf = _ := List.mem_singleton.mp hleaf
      rfl
  | cons key keys => exact bare_cons fun bucket hbucket => nomatch hbucket

/-- The rows of a response without values have a key for each level, for each field that was lost and
for the count. -/
theorem Bare.mem_keys {response : Response} {rows : List Members} {row : Members}
    (hbare : Bare d.levelKeys response.aggregations) (h : d.rowsOf response = .ok rows)
    (hrow : row ∈ rows) :
    key ∈ Members.keys row ↔
      d.countField = some key ∨ key ∈ d.emptyFields ∨ key ∈ d.levelKeys := by
  rw [rowsOf_eq, orFault_eq_ok] at h
  rw [← h.2, mem_sortByTime] at hrow
  obtain ⟨leaf, hleaf, rfl⟩ := List.mem_map.mp hrow
  have hmem := List.mem_of_mem_filter hleaf
  have hpath : (leaf.keys d.timeBucketed).map Prod.fst = d.levelKeys := by
    rw [← map_fst_path_of_mem_leaves hmem, Leaf.keys, List.map_map]
    rfl
  rw [hbare _ leaf hmem, List.nil_append, mem_keys_leafRow, hpath]

end Descriptor

/-! ## Answers without values -/

namespace Result

theorem exists_of_mem_bucketsOf? {items : List Json} {buckets : List Bucket} {bucket : Bucket}
    (h : bucketsOf? items = some buckets) (hmem : bucket ∈ buckets) :
    ∃ members, .object members ∈ items ∧ subOf? members = some bucket.sub := by
  induction items generalizing buckets with
  | nil =>
      cases h
      cases hmem
  | cons item items ih =>
      cases item with
      | object members =>
          rw [bucketsOf?] at h
          simp only [Option.bind_eq_bind, Option.bind_eq_some_iff] at h
          obtain ⟨keyText, -, count, -, sub, hsub, rest, hrest, h⟩ := h
          cases h
          rcases List.mem_cons.mp hmem with rfl | hmem
          · exact ⟨members, List.mem_cons_self, hsub⟩
          · obtain ⟨members', hmembers, hsub'⟩ := ih hrest hmem
            exact ⟨members', List.mem_cons_of_mem _ hmembers, hsub'⟩
      | null => cases h
      | bool b => cases h
      | number n => cases h
      | text s => cases h
      | list items => cases h

/-- Results that are read from an answer, in a bucket or outside of all. -/
def ReadFrom (results : Members) (aggregations : Results) : Prop :=
  subOf? results = some aggregations ∨ named? (.object results) = some aggregations

theorem readFrom_nil {aggregations : Results} (h : ReadFrom [] aggregations) :
    aggregations = [] := by
  rcases h with h | h
  · exact (Option.some.inj h).symm
  · exact (Option.some.inj h).symm

theorem exists_of_mem_bucketsAt {name : String} {items : List Json} {more : Members}
    (hvalue : Members.get? "value" more = none) {aggregations : Results} {bucket : Bucket}
    (h : ReadFrom [(name, .object (("buckets", .list items) :: more))] aggregations)
    (hmem : bucket ∈ Descriptor.bucketsAt name aggregations) :
    ∃ members, .object members ∈ items ∧ subOf? members = some bucket.sub := by
  have hlevel : ofJson? (.object (("buckets", .list items) :: more)) =
      (bucketsOf? items).map .buckets := by
    rw [ofJson?, Members.get?, if_neg (by decide), hvalue]
    simp [bucketsIn?]
  obtain ⟨buckets, hbuckets, rfl⟩ : ∃ buckets, bucketsOf? items = some buckets ∧
      aggregations = [(name, .buckets buckets)] := by
    cases hbuckets : bucketsOf? items with
    | none =>
        rw [hbuckets, Option.map_none] at hlevel
        rcases h with h | h
        · rw [subOf?, hlevel] at h
          split at h
          · -- Such a name belongs to the bucket, so that there is no level.
            cases h
            cases hmem
          · cases h
        · simp [named?, Json.object?, hlevel] at h
    | some buckets =>
        rw [hbuckets, Option.map_some] at hlevel
        refine ⟨buckets, rfl, ?_⟩
        rcases h with h | h
        · rw [subOf?, hlevel] at h
          split at h
          · cases h
            cases hmem
          · cases h
            rfl
        · simp [named?, Json.object?, hlevel] at h
          exact h.symm
  rw [Descriptor.bucketsAt, List.lookup_cons, beq_self_eq_true] at hmem
  exact exists_of_mem_bucketsOf? hbuckets hmem

end Result

namespace Descriptor

variable {timeField : String} {phase : Option Phase} {every : Option Interval} {leaf sub : Members}
  {size : Nat} {documents : List Members} {results : Members}

/-- A level of buckets, each of which holds results of `inside`. -/
def LevelOf (name : String) (inside : Members → Prop) (results : Members) : Prop :=
  ∃ items more, results = [(name, .object (("buckets", .list items) :: more))] ∧
    Members.get? "value" more = none ∧
    ∀ members, .object members ∈ items → ∃ results, inside results ∧
      Result.subOf? members = Result.subOf? results

theorem levelOf_groupLevel {field : String}
    (h : evaluateAll (ofMembers (Tree.groupLevel size field sub)) documents = .ok results) :
    LevelOf field (fun results => ∃ documents, evaluateAll (ofMembers sub) documents = .ok results)
      results := by
  rw [ofMembers_groupLevel_getD, evaluateAll] at h
  obtain ⟨result, hresult, h⟩ := bind_eq_ok.mp h
  cases h
  obtain ⟨items, more, rfl, hvalue, hitems⟩ := evaluate_terms_eq_ok hresult
  refine ⟨items, more, rfl, hvalue, fun members hmem => ?_⟩
  obtain ⟨group, -, hgroup⟩ := exists_of_mapM_ok hitems hmem
  obtain ⟨results, hinside, hitem⟩ := bind_eq_ok.mp hgroup
  rw [Result.bucketJson_eq] at hitem
  cases hitem
  exact ⟨results, ⟨group.2, hinside⟩, Result.subOf?_bucketMembers⟩

theorem levelOf_millisLevel {n offset : Int} (hpos : 0 < n)
    (h : evaluateAll (ofMembers (Tree.millisLevel timeField n offset)) documents = .ok results) :
    LevelOf timeKey (· = []) results := by
  by_cases hreadable : Duration.Readable n ∧ Duration.Readable offset
  · obtain ⟨hn, hoffset⟩ := hreadable
    rw [ofMembers_millisLevel_of_readable hpos hn hoffset, evaluateAll] at h
    obtain ⟨result, hresult, h⟩ := bind_eq_ok.mp h
    cases h
    rw [evaluate] at hresult
    obtain ⟨items, hitems, hresult⟩ := bind_eq_ok.mp hresult
    cases hresult
    refine ⟨items, [], rfl, rfl, fun members hmem => ?_⟩
    obtain ⟨group, -, hgroup⟩ := exists_of_mapM_ok hitems hmem
    obtain ⟨results, hinside, hitem⟩ := bind_eq_ok.mp hgroup
    rw [Result.bucketJson_eq] at hitem
    cases hinside
    cases hitem
    exact ⟨[], rfl, Result.subOf?_bucketMembers⟩
  · obtain ⟨_, _, _, hrejected⟩ :=
      @ofMembers_millisLevel_of_not_readable timeField n offset hpos hreadable
    rw [hrejected] at h
    cases h

theorem LevelOf.bare {name : String} {keys : List String} {inside : Members → Prop}
    {aggregations : Results} (h : LevelOf name inside results)
    (hread : Result.ReadFrom results aggregations)
    (hinside : ∀ results aggregations, inside results → Result.ReadFrom results aggregations →
      Bare keys aggregations) : Bare (name :: keys) aggregations := by
  obtain ⟨items, more, rfl, hvalue, hitems⟩ := h
  refine bare_cons fun bucket hbucket => ?_
  obtain ⟨members, hmembers, hsub⟩ := Result.exists_of_mem_bucketsAt hvalue hread hbucket
  obtain ⟨results, hresults, hsame⟩ := hitems members hmembers
  exact hinside results bucket.sub hresults (.inl (hsame.symm.trans hsub))

/-- What a store answers to the levels of groups and time has no values. -/
theorem bare_of_evaluateAll (hleaf : Tree.Leaf timeField phase every leaf) {grouping : List String}
    (h : evaluateAll (ofMembers (grouping.foldr (Tree.groupLevel size) leaf)) documents =
      .ok results) {aggregations : Results} (hread : Result.ReadFrom results aggregations) :
    Bare (grouping ++ timeLevels every) aggregations := by
  induction grouping generalizing documents results aggregations with
  | nil =>
      cases hleaf with
      | whole =>
          cases h
          rw [Result.readFrom_nil hread]
          exact bare_nil _
      | millis hpos hshift =>
          refine (levelOf_millisLevel hpos h).bare hread ?_
          rintro _ aggregations rfl hread
          rw [Result.readFrom_nil hread]
          exact bare_nil _
  | cons field grouping ih =>
      refine (levelOf_groupLevel h).bare hread ?_
      rintro results aggregations ⟨documents, hinside⟩ hread
      exact ih hinside hread

end Descriptor

namespace MemoryStore

variable {memory : MemoryStore} {patterns : List String} {q : Query} {response : Response}

theorem aggregations_of_absorb {e : StoreError} (h : Store.absorb e = .ok response) :
    response.aggregations = [] := by
  rw [Store.absorb] at h
  split at h <;> cases h <;> rfl

theorem evaluateAll_of_evaluate {found hits : List Members} {results : Option Members}
    (h : memory.evaluate ⟨patterns, q.toJson⟩ = .ok (found, hits, results)) :
    ∀ answer ∈ results, ∃ tree ∈ q.aggregations,
      evaluateAll (ofMembers tree) found = .ok answer := by
  have haggs : ((q.toJson.member? "aggregations").or (q.toJson.member? "aggs")).bind
      Json.object? = q.aggregations := by
    rw [q.member?_aggregations, q.member?_aggs]
    cases q.aggregations <;> rfl
  simp only [evaluate, q.member?_query, haggs] at h
  obtain ⟨names, -, h⟩ := bind_eq_ok.mp h
  split at h
  · cases h
  obtain ⟨matched, -, h⟩ := bind_eq_ok.mp h
  have hresults : (q.aggregations.mapM fun tree => evaluateAll (ofMembers tree) found) =
      .ok results := by
    split at h
    · obtain ⟨_, -, h⟩ := bind_eq_ok.mp h
      obtain ⟨sorted, -, h⟩ := bind_eq_ok.mp h
      obtain ⟨results, hresults, h⟩ := bind_eq_ok.mp h
      cases h
      exact hresults
    · obtain ⟨sorted, -, h⟩ := bind_eq_ok.mp h
      obtain ⟨results, hresults, h⟩ := bind_eq_ok.mp h
      cases h
      exact hresults
  rintro answer ⟨⟩
  cases haggregations : q.aggregations with
  | none =>
      rw [haggregations] at hresults
      cases hresults
  | some tree =>
      rw [haggregations] at hresults
      obtain ⟨answer, hanswer, h⟩ := bind_eq_ok.mp hresults
      cases h
      exact ⟨tree, rfl, hanswer⟩

/-- What a read gets is read from what the store evaluates, or from nothing. -/
theorem readFrom_of_answer (h : memory.answer ⟨patterns, q.toJson⟩ = .ok response) :
    response.aggregations = [] ∨ ∃ tree ∈ q.aggregations, ∃ found results,
      evaluateAll (ofMembers tree) found = .ok results ∧
        Result.ReadFrom results response.aggregations := by
  rw [answer] at h
  split at h
  · rename_i hsearch
    cases h
    rw [search] at hsearch
    split at hsearch
    · cases hsearch
    · rename_i found hits results hevaluate
      split at hsearch
      · rename_i aggregations hread
        cases hsearch
        cases results with
        | none => exact .inl (Option.some.inj hread).symm
        | some results =>
            obtain ⟨tree, htree, hresults⟩ := evaluateAll_of_evaluate hevaluate results rfl
            exact .inr ⟨tree, htree, found, results, hresults, .inr hread⟩
      · cases hsearch
  · exact .inl (aggregations_of_absorb h)

end MemoryStore

/-! ## Descriptors along a run -/

namespace Descriptor

variable {d fewer : Descriptor} {fields lost : List String} {target : Option String}
  {field : String} {sizes : BucketSizes}

/-- Each of the fields is either grouped by or was lost. -/
def Splits (d : Descriptor) (fields : List String) : Prop :=
  (∀ field ∈ d.grouping, field ∉ d.emptyFields) ∧
    ∀ field, field ∈ d.grouping ∨ field ∈ d.emptyFields ↔ field ∈ fields

/-- The descriptor of a reduction by `fields`, some of which may have been lost. -/
structure Carries (d : Descriptor) (target : Option String) (fields : List String) : Prop where
  levels : ∃ timeField size, d.Levels timeField size
  countField : d.countField = target
  emptyRow : ∀ key, key ∈ Members.keys d.emptyRow ↔ target = some key
  splits : d.Splits fields

theorem Splits.removeField? (h : d.Splits fields)
    (hfewer : d.removeField? field sizes = some fewer) :
    fewer.Splits fields ∧ d.emptyFields <+: fewer.emptyFields := by
  obtain ⟨hapart, hwhole⟩ := h
  rw [Descriptor.removeField?] at hfewer
  split at hfewer
  · rename_i hfield
    have hfresh := hapart field hfield
    cases hfewer
    simp only [if_neg hfresh]
    refine ⟨⟨fun other hother => ?_, fun other => ?_⟩, List.prefix_append _ _⟩
    · obtain ⟨hmem, hne⟩ := List.mem_filter.mp hother
      have hne : other ≠ field := of_decide_eq_true hne
      simp [hapart other hmem, hne]
    · rw [← hwhole]
      by_cases hsame : other = field
      · simp [hsame, hfield]
      · simp [hsame]
  · cases hfewer

theorem Carries.removeField? (h : d.Carries target fields)
    (hfewer : d.removeField? field sizes = some fewer) :
    fewer.Carries target fields ∧ d.emptyFields <+: fewer.emptyFields := by
  obtain ⟨timeField, size, hlevels⟩ := h.levels
  obtain ⟨hsplits, hgrown⟩ := h.splits.removeField? hfewer
  have hframe : fewer.countField = d.countField ∧ fewer.emptyRow = d.emptyRow := by
    rw [Descriptor.removeField?] at hfewer
    split at hfewer <;> cases hfewer
    exact ⟨rfl, rfl⟩
  refine ⟨⟨⟨timeField, sizes.default, (hlevels.removeField? hfewer).1⟩, ?_, ?_, hsplits⟩, hgrown⟩
  · rw [hframe.1, h.countField]
  · rw [hframe.2]
    exact h.emptyRow

/-- What is left of a descriptor as it loses one field after another. -/
inductive Losing (sizes : BucketSizes) (d : Descriptor) : Descriptor → Prop where
  | none : Losing sizes d d
  | field {left fewer : Descriptor} {field : String} (h : Losing sizes d left)
    (hfewer : left.removeField? field sizes = some fewer) : Losing sizes d fewer

theorem Losing.trans {left rest : Descriptor} (h : d.Losing sizes left)
    (hrest : left.Losing sizes rest) : d.Losing sizes rest := by
  induction hrest with
  | none => exact h
  | field _ hfewer ih => exact .field ih hfewer

theorem Carries.losing {left : Descriptor} (h : d.Carries target fields)
    (hleft : d.Losing sizes left) :
    left.Carries target fields ∧ d.emptyFields <+: left.emptyFields := by
  induction hleft with
  | none => exact ⟨h, List.prefix_rfl⟩
  | field _ hfewer ih =>
      obtain ⟨hcarries, hgrown⟩ := ih
      obtain ⟨hfewer, hmore⟩ := hcarries.removeField? hfewer
      exact ⟨hfewer, hgrown.trans hmore⟩

theorem losing_without (sizes : BucketSizes) (d : Descriptor) (lost : List String) :
    d.Losing sizes (d.without sizes lost) := by
  induction lost generalizing d with
  | nil => exact .none
  | cons field lost ih =>
      refine Losing.trans ?_ (ih (d.drop sizes field))
      unfold drop
      split
      · exact .none
      · cases hfewer : d.removeField? field sizes with
        | none => exact .none
        | some fewer => exact .field .none hfewer

end Descriptor

/-! ## Windows -/

namespace Aggregator

variable {memory : MemoryStore} {session : Session ScriptedStore} {a : Aggregator} {d : Descriptor}
  {target : Option String} {fields : List String} {window : Moment × Moment}

/-- A row has a key for each of the fields, for the target and for its time, and no other. -/
def Complete (target : Option String) (fields : List String) (log : Members) : Prop :=
  ∀ key, key ∈ Members.keys log ↔ key ∈ fields ∨ target = some key ∨ key = timeKey

/-- A row that lacks nothing but the time of its window. -/
def Unstamped (target : Option String) (fields : List String) (log : Members) : Prop :=
  ∀ key ≠ timeKey, key ∈ Members.keys log ↔ key ∈ fields ∨ target = some key

theorem complete_stamped {log : Members} (h : Unstamped target fields log)
    (window : Moment × Moment) : Complete target fields (stamped window log).log := by
  intro key
  rw [stamped, Members.mem_keys_insert]
  by_cases hkey : key = timeKey
  · simp [hkey]
  · simp [hkey, h key hkey]

theorem unstamped_of_rowsOf {indices : List String} {q : Query} {response : Response}
    {rows : List Members} (hd : d.Carries target fields)
    (hquery : q.aggregations = if d.tree.isEmpty then none else some d.tree)
    (hanswer : memory.answer ⟨indices, q.toJson⟩ = .ok response)
    (hrows : rowsOf d response = .ok rows) : ∀ row ∈ rows, Unstamped target fields row := by
  obtain ⟨timeField, size, hlevels⟩ := hd.levels
  obtain ⟨leaf, hleaf, htree⟩ := hlevels.tree
  have hkeys : d.levelKeys = d.grouping ++ Descriptor.timeLevels d.every := by
    rw [Descriptor.levelKeys, Descriptor.timeBucketed, hlevels.hasHistogram, Descriptor.timeLevels]
  have hbare : Descriptor.Bare d.levelKeys response.aggregations := by
    rcases MemoryStore.readFrom_of_answer hanswer with hnone | ⟨tree, hmem, found, results,
      hresults, hread⟩
    · rw [hnone]
      exact Descriptor.bare_nil _
    · rw [hquery] at hmem
      split at hmem
      · cases hmem
      · cases hmem
        rw [htree] at hresults
        rw [hkeys]
        exact Descriptor.bare_of_evaluateAll hleaf hresults hread
  intro row hrow key hkey
  rw [rowsOf] at hrows
  split at hrows
  · cases hrows
    cases hrow
  · have hsplit := hd.splits.2 key
    rw [hbare.mem_keys (mapError_eq_ok.mp hrows) hrow, hd.countField, hkeys, List.mem_append,
      ← hsplit]
    have htime : key ∉ Descriptor.timeLevels d.every := by
      rw [Descriptor.timeLevels]
      split <;> simp [hkey]
    simp only [htime, or_false]
    tauto

theorem Searched.carries {range : TimeRange}
    {out : Except ReadError (List Members × Descriptor) × Session ScriptedStore}
    (h : Searched a ScriptedStore.store range d session out) (hd : d.Carries target fields)
    (hsession : session.Answers memory) :
    out.2.Answers memory ∧ ∀ logs used, out.1 = .ok (logs, used) →
      d.Losing a.options.sizes used ∧ ∀ log ∈ logs, Unstamped target fields log := by
  induction h with
  | rows reply =>
      obtain ⟨hrows, hafter⟩ := answer_of_reply hsession reply
      refine ⟨hafter, fun logs used h => ?_⟩
      cases h
      obtain ⟨response, hanswer, hrows⟩ := bind_eq_ok.mp hrows.symm
      refine ⟨.none, unstamped_of_rowsOf hd ?_ hanswer hrows⟩
      rw [Query.aggregate]
      split <;> rfl
  | failed reply =>
      refine ⟨(answer_of_reply hsession reply).2, fun logs used h => ?_⟩
      cases h
  | again reply _ removed _ ih =>
      obtain ⟨hanswers, hused⟩ := ih (hd.removeField? removed).1
        ((answer_of_reply hsession reply).2.add .fieldRemovals 1)
      refine ⟨hanswers, fun logs used h => ?_⟩
      obtain ⟨hlosing, hlogs⟩ := hused logs used h
      exact ⟨(Descriptor.Losing.field .none removed).trans hlosing, hlogs⟩

/-- What a window yields has all fields, those that it lacks included. -/
theorem fetchWindow_carries (hd : d.Carries target fields) (hsession : session.Answers memory)
    (a : Aggregator) (range : TimeRange) :
    (a.fetchWindow ScriptedStore.store range d session).2.Answers memory ∧
      ∀ logs used, (a.fetchWindow ScriptedStore.store range d session).1 = .ok (logs, used) →
        d.Losing a.options.sizes used ∧ ∀ log ∈ logs, Unstamped target fields log :=
  (a.searched ScriptedStore.store range d session).carries hd hsession

/-- A result of a window that `a` can take in. -/
def Fitting (target : Option String) (fields : List String)
    (result : Except ReadError (List Members × Descriptor)) : Prop :=
  ∀ logs used, result = .ok (logs, used) → ∀ log ∈ logs, Unstamped target fields log

theorem fetchWindows_fitting (ha : a.descriptor.Carries target fields)
    (hsession : session.Answers memory) (windows : List (Moment × Moment)) :
    ∀ result ∈ (a.fetchWindows ScriptedStore.store windows session).1,
      Fitting target fields result := by
  induction windows generalizing session with
  | nil => exact fun _ hresult => nomatch hresult
  | cons window windows ih =>
      obtain ⟨hanswers, hwindow⟩ := fetchWindow_carries ha hsession a (Windows.clip a.range window)
      intro result hresult
      rcases List.mem_cons.mp hresult with rfl | hresult
      · exact fun logs used h => (hwindow logs used h).2
      · exact ih hanswers result hresult

/-! ## Putting rows together -/

theorem mem_keys_foldl_insert {fields : List String} {log : Members} {key : String} :
    key ∈ Members.keys (fields.foldl (fun log field => log.insert field .null) log) ↔
      key ∈ fields ∨ key ∈ Members.keys log := by
  induction fields generalizing log with
  | nil => simp
  | cons field fields ih =>
      rw [List.foldl_cons, ih, Members.mem_keys_insert, List.mem_cons, or_left_comm, or_assoc]

/-- A window without documents has its row once all fields are lost. -/
theorem complete_silentRow (ha : a.descriptor.Carries target fields)
    (hgrouped : a.descriptor.isGrouped = false) (window : Moment × Moment) :
    Complete target fields (a.silentRow window).log := by
  refine complete_stamped (fun key _ => ?_) window
  have hnone : a.descriptor.grouping = [] := by simpa [Descriptor.isGrouped] using hgrouped
  have hsplit := ha.splits.2 key
  rw [hnone] at hsplit
  rw [mem_keys_foldl_insert, ha.emptyRow, ← hsplit]
  simp

theorem receiveWindow_carries (ha : a.descriptor.Carries target fields) (index : Nat)
    (window : Moment × Moment) {logs : List Members} {used : Descriptor}
    (hlogs : ∀ log ∈ logs, Unstamped target fields log) :
    let taken := a.receiveWindow index window logs used
    taken.2.2.descriptor.Carries target fields ∧
      a.descriptor.emptyFields <+: taken.2.2.descriptor.emptyFields ∧
      ∀ row ∈ taken.1, Complete target fields row.log := by
  obtain ⟨hcarries, hgrown⟩ :=
    ha.losing (Descriptor.losing_without a.options.sizes a.descriptor used.emptyFields)
  have hstamped : ∀ row ∈ logs.map (stamped window), Complete target fields row.log := by
    intro row hrow
    obtain ⟨log, hlog, rfl⟩ := List.mem_map.mp hrow
    exact complete_stamped (hlogs log hlog) window
  rw [receiveWindow, dropFields_eq]
  simp only
  split
  · exact ⟨hcarries, hgrown, fun row hrow => by cases hrow⟩
  · split
    · exact ⟨hcarries, hgrown, hstamped⟩
    · rename_i hungrouped
      refine ⟨hcarries, hgrown, fun row hrow => ?_⟩
      rcases List.mem_append.mp hrow with hrow | hrow
      · obtain ⟨between, -, rfl⟩ := List.mem_map.mp hrow
        exact complete_silentRow hcarries (Bool.eq_false_iff.mpr hungrouped) between
      · exact hstamped row hrow

theorem receive_carries (ha : a.descriptor.Carries target fields) (session : Session ScriptedStore)
    (index : Nat) {results : List ((Moment × Moment) × Except ReadError (List Members × Descriptor))}
    (hresults : ∀ result ∈ results, Fitting target fields result.2) :
    let received := a.receive session index results
    received.2.1.descriptor.Carries target fields ∧
      a.descriptor.emptyFields <+: received.2.1.descriptor.emptyFields ∧
      ∀ rows, received.1 = .ok rows → ∀ row ∈ rows, Complete target fields row.log := by
  induction results generalizing a session index with
  | nil => exact ⟨ha, List.prefix_rfl, by rintro _ ⟨⟩ row ⟨⟩⟩
  | cons result results ih =>
      obtain ⟨window, e | ⟨logs, used⟩⟩ := result
      · exact ⟨ha, List.prefix_rfl, fun rows h => by cases h⟩
      · obtain ⟨hlogs, hrest⟩ := List.forall_mem_cons.mp hresults
        obtain ⟨hcarries, hgrown, hrows⟩ := receiveWindow_carries ha index window (hlogs logs used rfl)
        rw [receive_ok]
        simp only
        obtain ⟨hbehind, hmore, hlater⟩ := ih hcarries (session.add .backfilledRows
          (a.receiveWindow index window logs used).2.1) (index + 1) hrest
        refine ⟨hbehind, hgrown.trans hmore, fun rows h => ?_⟩
        obtain ⟨later, hlater', rfl⟩ := map_eq_ok.mp h
        intro row hrow
        rcases List.mem_append.mp hrow with hrow | hrow
        · exact hrows row hrow
        · exact hlater later hlater' row hrow

/-- The fields that are lost with some results are lost with more of them too. -/
theorem receive_append_grown (ha : a.descriptor.Carries target fields)
    (session : Session ScriptedStore) (index : Nat)
    {results more : List ((Moment × Moment) × Except ReadError (List Members × Descriptor))}
    (hresults : ∀ result ∈ results ++ more, Fitting target fields result.2) :
    (a.receive session index results).2.1.descriptor.emptyFields <+:
      (a.receive session index (results ++ more)).2.1.descriptor.emptyFields := by
  induction results generalizing a session index with
  | nil => exact (receive_carries ha session index hresults).2.1
  | cons result results ih =>
      obtain ⟨window, e | ⟨logs, used⟩⟩ := result
      · exact List.prefix_rfl
      · obtain ⟨hlogs, hrest⟩ := List.forall_mem_cons.mp hresults
        obtain ⟨hcarries, -, -⟩ := receiveWindow_carries ha index window (hlogs logs used rfl)
        rw [List.cons_append, receive_ok, receive_ok]
        exact ih hcarries _ (index + 1) hrest

/-! ## Runs -/

/-- The states of a run of fetches from stores in memory, failed fetches included. -/
inductive Run (start : Aggregator) : Aggregator → Prop where
  | start : Run start start
  | fetch {a : Aggregator} {memory : MemoryStore} {session : Session ScriptedStore}
    (h : Run start a) (hsession : session.Answers memory) :
    Run start (a.fetch ScriptedStore.store session).2.1

/-- The aggregator in the middle of a fetch, with the first results of its windows taken in. -/
def midway (a : Aggregator) (session : Session ScriptedStore) (taken : Nat) : Aggregator :=
  let found := a.fetchWindows ScriptedStore.store a.batch session
  (a.receive found.2 a.next ((a.batch.zip found.1).take taken)).2.1

theorem fitting_batch (ha : a.descriptor.Carries target fields) (hsession : session.Answers memory) :
    ∀ result ∈ a.batch.zip (a.fetchWindows ScriptedStore.store a.batch session).1,
      Fitting target fields result.2 :=
  fun result hresult => fetchWindows_fitting ha hsession a.batch result.2 (List.of_mem_zip hresult).2

theorem fetch_carries (ha : a.descriptor.Carries target fields) (hsession : session.Answers memory) :
    let fetched := a.fetch ScriptedStore.store session
    fetched.2.1.descriptor.Carries target fields ∧
      a.descriptor.emptyFields <+: fetched.2.1.descriptor.emptyFields ∧
      ∀ batch, fetched.1 = .ok batch → ∀ row ∈ batch.rows, Complete target fields row.log := by
  by_cases hend : a.windows.length ≤ a.next
  · rw [fetch_end _ _ hend]
    exact ⟨ha, List.prefix_rfl, by rintro _ ⟨⟩ row ⟨⟩⟩
  · obtain ⟨hcarries, hgrown, hrows⟩ := receive_carries ha
      (a.fetchWindows ScriptedStore.store a.batch session).2 a.next (fitting_batch ha hsession)
    rw [fetch_next _ _ hend]
    rw [← attempt] at hcarries hgrown hrows
    generalize a.attempt ScriptedStore.store session = attempted at hcarries hgrown hrows
    obtain ⟨e | rows, b, behind⟩ := attempted
    · exact ⟨hcarries, hgrown, fun batch h => by cases h⟩
    · refine ⟨hcarries, hgrown, fun batch h => ?_⟩
      cases h
      exact hrows rows rfl

theorem midway_carries (ha : a.descriptor.Carries target fields) (hsession : session.Answers memory)
    (taken : Nat) : (a.midway session taken).descriptor.Carries target fields :=
  (receive_carries ha _ _ fun result hresult =>
    fitting_batch ha hsession result (List.mem_of_mem_take hresult)).1

theorem midway_grown (ha : a.descriptor.Carries target fields) (hsession : session.Answers memory)
    (taken more : Nat) : (a.midway session taken).descriptor.emptyFields <+:
      (a.midway session (taken + more)).descriptor.emptyFields := by
  simp only [midway, List.take_add]
  refine receive_append_grown ha _ _ fun result hresult => fitting_batch ha hsession result ?_
  rw [← List.take_add] at hresult
  exact List.mem_of_mem_take hresult

theorem descriptor_fetch (a : Aggregator) (session : Session ScriptedStore) :
    (a.fetch ScriptedStore.store session).2.1.descriptor =
      (a.midway session a.batch.length).descriptor := by
  have hall : (a.batch.zip (a.fetchWindows ScriptedStore.store a.batch session).1).take
      a.batch.length = a.batch.zip (a.fetchWindows ScriptedStore.store a.batch session).1 :=
    List.take_of_length_le (by rw [List.length_zip]; exact Nat.min_le_left _ _)
  rw [midway]
  simp only [hall]
  rw [← attempt]
  by_cases hend : a.windows.length ≤ a.next
  · have hnone : a.batch = [] := by rw [batch, List.drop_eq_nil_of_le hend, List.take_nil]
    rw [fetch_end _ _ hend, attempt, hnone]
    rfl
  · rw [fetch_next _ _ hend]
    obtain ⟨e | rows, b, behind⟩ := a.attempt ScriptedStore.store session
    · rfl
    · rfl

theorem Run.carries {start : Aggregator} (h : start.Run a)
    (hstart : start.descriptor.Carries target fields) : a.descriptor.Carries target fields := by
  induction h with
  | start => exact hstart
  | fetch _ hsession ih => exact (fetch_carries ih hsession).1

end Aggregator

/-! ## Planned reductions -/

theorem ReduceExpr.target_of_toSpec? {e : ReduceExpr} {spec : ReducerSpec}
    (h : e.toSpec? = some spec) : e.target.field? = some spec.target := by
  simp only [toSpec?, Option.bind_eq_bind, Option.bind_eq_some_iff] at h
  obtain ⟨target, htarget, reducer, -, h⟩ := h
  split at h
  · cases h
    exact htarget
  · obtain ⟨argument, -, h⟩ := Option.bind_eq_some_iff.mp h
    cases h
    exact htarget
  · cases h

theorem Plan.eq_of_isPlainCount {specs : List ReducerSpec} (h : isPlainCount specs = true) :
    specs = [] ∨ ∃ spec, specs = [spec] := by
  simp only [isPlainCount, Bool.and_eq_true, decide_eq_true_eq] at h
  cases specs with
  | nil => exact .inl rfl
  | cons spec rest => exact .inr ⟨spec, by simpa using h.1⟩

theorem Plan.target_of_isPlainCount {exprs : List ReduceExpr} {specs : List ReducerSpec}
    (hspecs : exprs.mapM ReduceExpr.toSpec? = some specs) (hplain : isPlainCount specs = true)
    {key : String} :
    specs.head?.map (·.target) = some key ↔ ∃ e ∈ exprs, e.target.field? = some key := by
  cases exprs with
  | nil =>
      cases hspecs
      simp
  | cons e exprs =>
      simp only [List.mapM_cons, Option.bind_eq_bind, Option.bind_eq_some_iff] at hspecs
      obtain ⟨spec, hspec, rest, hrest, h⟩ := hspecs
      cases h
      obtain rfl : rest = [] := by simpa using eq_of_isPlainCount hplain
      have hnone : exprs = [] := by
        cases exprs with
        | nil => rfl
        | cons other exprs =>
            simp only [List.mapM_cons, Option.bind_eq_bind, Option.bind_eq_some_iff] at hrest
            obtain ⟨_, -, _, -, h⟩ := hrest
            cases h
      simp [hnone, ReduceExpr.target_of_toSpec? hspec]

theorem Plan.carries_of_descriptor? {options : Options} {r : Reduce} {d : Descriptor}
    (h : descriptor? options r = .ok (some d)) :
    d.Carries d.countField r.groupBy ∧
      ∀ key, d.countField = some key ↔ ∃ e ∈ r.exprs, e.target.field? = some key := by
  obtain ⟨hlevels, hgrouping, -, -, hfields, specs, hspecs, hplain, hcount, hrow⟩ :=
    descriptor?_levels h
  refine ⟨⟨⟨_, _, hlevels⟩, rfl, fun key => ?_, ?_, fun field => ?_⟩, fun key => ?_⟩
  · rw [hrow, Members.mem_keys_ofList, hcount, List.map_map]
    rcases eq_of_isPlainCount hplain with rfl | ⟨spec, rfl⟩
    · simp
    · simp [eq_comm]
  · simp [hfields]
  · simp [hfields, hgrouping]
  · rw [hcount]
    exact target_of_isPlainCount hspecs hplain

/-- All rows of a reduction that a read takes over have the same keys: the fields it was asked to
group by, the target of its count if it has one, and the time. That is so for every fetch of a run,
whatever fields are lost and however the fetches before it ended. At every point of the run each of
the fields is either grouped by or was lost, and fields that were lost stay so. -/
theorem Reduce.complete_rows {options : Plan.Options} {r : Reduce} {d : Descriptor}
    {indices : List String} {range : TimeRange} {windowOptions : WindowOptions}
    {filter : Option Json} {start a : Aggregator} {memory : MemoryStore}
    {session : Session ScriptedStore} (hplan : Plan.descriptor? options r = .ok (some d))
    (hstart : Aggregator.start? indices range d windowOptions filter = .ok start)
    (hrun : start.Run a) (hsession : session.Answers memory) :
    (∀ batch, (a.fetch ScriptedStore.store session).1 = .ok batch → ∀ row ∈ batch.rows, ∀ key,
      key ∈ Members.keys row.log ↔
        key ∈ r.groupBy ∨ (∃ e ∈ r.exprs, e.target.field? = some key) ∨ key = timeKey) ∧
    (∀ taken, (a.midway session taken).descriptor.Splits r.groupBy) ∧
    (∀ taken more, (a.midway session taken).descriptor.emptyFields <+:
      (a.midway session (taken + more)).descriptor.emptyFields) ∧
    a.midway session 0 = a ∧
    (a.fetch ScriptedStore.store session).2.1.descriptor =
      (a.midway session a.batch.length).descriptor ∧
    (∀ window logs used,
      (a.fetchWindow ScriptedStore.store window a.descriptor session).1 = .ok (logs, used) →
        a.descriptor.Losing a.options.sizes used) ∧
    ∀ left, a.descriptor.Losing a.options.sizes left →
      left.Splits r.groupBy ∧ a.descriptor.emptyFields <+: left.emptyFields := by
  obtain ⟨hd, htarget⟩ := Plan.carries_of_descriptor? hplan
  have hstarted : start.descriptor = d := by
    obtain ⟨boundaries, -, h⟩ := bind_eq_ok.mp hstart
    cases h
    rfl
  have ha : a.descriptor.Carries d.countField r.groupBy := hrun.carries (hstarted ▸ hd)
  refine ⟨fun batch hbatch row hrow key => ?_,
    fun taken => (a.midway_carries ha hsession taken).splits, a.midway_grown ha hsession, rfl,
    a.descriptor_fetch session, fun window logs used h => ?_, fun left hleft => ?_⟩
  · rw [← htarget]
    exact (Aggregator.fetch_carries ha hsession).2.2 batch hbatch row hrow key
  · exact ((Aggregator.fetchWindow_carries ha hsession a window).2 logs used h).1
  · obtain ⟨hcarries, hgrown⟩ := ha.losing hleft
    exact ⟨hcarries.splits, hgrown⟩

/-- Four minutes by host and centre in one batch. The first one loses the centre and the second one the
host, behind which a silent minute has a row too. All rows have both fields. -/
theorem Reduce.complete_rows_hostless :
    let documents : List Members := [[("at", .text "2024-05-01T10:00:00Z"), ("host", .text "a")],
      [("at", .text "2024-05-01T10:01:00Z"), ("centre", .text "x")],
      [("at", .text "2024-05-01T10:03:00Z")]]
    let memory : MemoryStore := ⟨[("logs", documents)], 10⟩
    let session : Session ScriptedStore := ⟨⟨memory, [], []⟩, .zero⟩
    let range : TimeRange := ⟨.utc 1714557600000000000, .utc 1714557840000000000⟩
    let r : Reduce :=
      ⟨[⟨.field "n", "count", []⟩], ["host", "centre"], some (.millis 60000), none, none⟩
    let row (centre host : Json) (count : Nat) (minute : String) : Row :=
      ⟨[("centre", centre), ("host", host), ("n", .nat count), ("time", .text minute)], true⟩
    let batch : Batch := ⟨[row .null (.text "a") 1 "2024-05-01T10:01:00Z",
      row (.text "x") .null 1 "2024-05-01T10:02:00Z", row .null .null 0 "2024-05-01T10:03:00Z",
      row .null .null 1 "2024-05-01T10:04:00Z"], true⟩
    ∃ d start, Plan.descriptor? ⟨"at", .standard⟩ r = .ok (some d) ∧
      Aggregator.start? ["logs"] range d ⟨"at", 4, .standard⟩ none = .ok start ∧
      start.Run start ∧ session.Answers memory ∧
      (start.fetch ScriptedStore.store session).1 = .ok batch ∧
      (start.fetch ScriptedStore.store session).2.1.descriptor.emptyFields = ["centre", "host"] ∧
      ∀ row ∈ batch.rows, ∀ key, key ∈ Members.keys row.log ↔
        key ∈ r.groupBy ∨ (∃ e ∈ r.exprs, e.target.field? = some key) ∨ key = timeKey := by
  intro documents memory session range r row batch
  let d : Descriptor :=
    ⟨Tree.grouped ["host", "centre"] (Tree.millisLevel "at" 60000 0) .standard, some "n",
      [("n", .nat 0)], ["host", "centre"], r.every, none, []⟩
  let start : Aggregator := {
    indices := ["logs"], filter := none, options := ⟨"at", 4, .standard⟩, descriptor := d, range
    boundaries := [.utc 1714557600000000000, .utc 1714557660000000000, .utc 1714557720000000000,
      .utc 1714557780000000000, .utc 1714557840000000000]
    next := 0, lastRowWindow := none }
  have hplan : Plan.descriptor? ⟨"at", .standard⟩ r = .ok (some d) := by cbv
  have hstart : Aggregator.start? ["logs"] range d ⟨"at", 4, .standard⟩ none = .ok start := by cbv
  have hsession : session.Answers memory := ⟨rfl, rfl⟩
  -- both at once, as evaluating the batch is what takes time
  have hfetch : ((start.fetch ScriptedStore.store session).1,
      (start.fetch ScriptedStore.store session).2.1.descriptor.emptyFields) =
        (.ok batch, ["centre", "host"]) := by cbv
  obtain ⟨hbatch, hlost⟩ := Prod.mk.inj hfetch
  obtain ⟨hkeys, -⟩ := Reduce.complete_rows hplan hstart .start hsession
  exact ⟨d, start, hplan, hstart, .start, hsession, hbatch, hlost, hkeys batch hbatch⟩

end Sluice
