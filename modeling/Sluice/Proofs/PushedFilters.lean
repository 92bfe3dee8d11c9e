import Mathlib
import Sluice.Plan
import Sluice.Proofs.OrderedReads
import Sluice.Proofs.Predicates

/-!
Filters that a read takes over. The store applies them to its documents, and a pipeline to the rows
of those: the two differ in their times, so a filter that does not tell those apart selects the same
rows on either side.
-/
namespace Sluice

open Sorting

namespace Document

/-! ## What a document and its row share -/

/-- Whether a document's time stands under a key, or its row's time does. -/
def isTime (timeField key : String) : Bool := key = timeField || key = timeKey

/-- The members that do not hold a time. -/
def untimed (timeField : String) (members : Members) : Members :=
  members.filter fun (key, _) => !isTime timeField key

/-- The members that hold a time. -/
def timed (timeField : String) (members : Members) : Members :=
  members.filter fun (key, _) => isTime timeField key

variable {timeField key : String} {document : Members}

theorem untimed_insert (hkey : isTime timeField key = true) (value : Json) (members : Members) :
    untimed timeField (Members.insert key value members) = untimed timeField members := by
  induction members with
  | nil => simp [untimed, Members.insert, hkey]
  | cons member rest ih =>
      obtain ⟨k, v⟩ := member
      simp only [untimed] at ih
      rw [Members.insert]
      split
      · simp [untimed, hkey]
      · split
        · rename_i hk
          subst hk
          simp [untimed, hkey]
        · simp only [untimed, List.filter_cons, ih]

theorem untimed_erase (hkey : isTime timeField key = true) (members : Members) :
    untimed timeField (Members.erase key members) = untimed timeField members := by
  induction members with
  | nil => rfl
  | cons member rest ih =>
      obtain ⟨k, v⟩ := member
      simp only [untimed] at ih
      rw [Members.erase]
      split
      · rename_i hk
        subst hk
        simp [untimed, hkey]
      · simp only [untimed, List.filter_cons, ih]

/-- A row differs from its document in times only. -/
theorem untimed_row (timeField : String) (document : Members) :
    untimed timeField (row timeField document).log = untimed timeField document := by
  unfold row
  split
  · rw [untimed_insert (by simp [isTime]), untimed_erase (by simp [isTime])]
  · rfl

theorem get?_untimed (hkey : isTime timeField key = false) (members : Members) :
    Members.get? key (untimed timeField members) = Members.get? key members := by
  induction members with
  | nil => rfl
  | cons member rest ih =>
      obtain ⟨k, v⟩ := member
      simp only [untimed] at ih
      by_cases hk : k = key
      · subst hk
        simp [untimed, hkey, Members.get?]
      · cases h : isTime timeField k <;> simp [untimed, h, Members.get?, hk, ih]

theorem any_textsInMembers (timeField : String) (p : String → Bool) (members : Members) :
    (textsInMembers members).any p =
      ((textsInMembers (untimed timeField members)).any p ||
        (textsInMembers (timed timeField members)).any p) := by
  induction members with
  | nil => rfl
  | cons member rest ih =>
      obtain ⟨k, v⟩ := member
      simp only [untimed, timed] at ih
      cases h : isTime timeField k <;>
        simp [untimed, timed, h, textsInMembers, ih, Bool.or_assoc,
          Bool.or_left_comm]

/-- The key that a field is looked up under where the document has no key of its whole name. -/
def root (name : String) : String := ((name.toList.splitOn '.').map String.ofList).headD ""

theorem lookup_congr {a b : Members} {name : String}
    (hname : Members.get? name a = Members.get? name b)
    (hroot : Members.get? (root name) a = Members.get? (root name) b) :
    lookup a name = lookup b name := by
  unfold lookup
  rw [hname]
  cases Members.get? name b with
  | some value => rfl
  | none =>
      unfold root at hroot
      cases hsplit : (name.toList.splitOn '.').map String.ofList with
      | nil => rfl
      | cons key path =>
          rw [hsplit, List.headD_cons] at hroot
          simp only [hroot]

theorem root_of_plain {name : String} (h : '.' ∉ name.toList) : root name = name := by
  have hsplit : name.toList.splitOn '.' = [name.toList] :=
    List.splitOnP_eq_singleton fun c hc => by
      simp only [beq_eq_false_iff_ne, ne_eq]
      exact fun he => h (he ▸ hc)
  rw [root, hsplit]
  exact String.ofList_toList

/-- A field that is not looked up under a time is the same in a row as in its document. -/
theorem lookup_row {name : String} (hplain : '.' ∉ timeField.toList)
    (hroot : isTime timeField (root name) = false) (document : Members) :
    lookup (row timeField document).log name = lookup document name := by
  have hname : isTime timeField name = false := by
    simp only [isTime, Bool.or_eq_false_iff, decide_eq_false_iff_not] at hroot ⊢
    constructor
    · rintro rfl
      exact hroot.1 (root_of_plain hplain)
    · rintro rfl
      exact hroot.2 (root_of_plain (by decide))
  refine lookup_congr ?_ ?_
  · rw [← get?_untimed hname, untimed_row, get?_untimed hname]
  · rw [← get?_untimed hroot, untimed_row, get?_untimed hroot]

end Document

/-! ## Predicates that do not tell a document from its row -/

namespace Expr

/-- The fields that a predicate names. -/
def fields : Expr → List String
  | .field name => [name]
  | .filter inner | .quote inner | .not inner => inner.fields
  | .binary _ lhs rhs => lhs.fields ++ rhs.fields
  | _ => []

/-- The free texts in a predicate. -/
def freeTexts : Expr → List String
  | .freeText text => [text]
  | .filter inner | .quote inner | .not inner => inner.freeTexts
  | .binary _ lhs rhs => lhs.freeTexts ++ rhs.freeTexts
  | _ => []

theorem mem_fields_of_field? {e : Expr} {name : String} (h : e.field? = some name) :
    name ∈ e.fields := by
  induction e with
  | field other =>
      cases h
      exact List.mem_singleton_self _
  | quote inner ih => exact ih h
  | _ => cases h

theorem compares_congr {a b : Members} {lhs rhs : Expr}
    (h : ∀ name ∈ lhs.fields ++ rhs.fields, Document.lookup a name = Document.lookup b name)
    (op : Operator) : compares a op lhs rhs = compares b op lhs rhs := by
  unfold compares
  split
  · rename_i hlhs _
    rw [h _ (List.mem_append_left _ (mem_fields_of_field? hlhs))]
  · rename_i hrhs _
    rw [h _ (List.mem_append_right _ (mem_fields_of_field? hrhs))]
  · rfl

theorem holds_congr {e : Expr} {a b : Members}
    (hfields : ∀ name ∈ e.fields, Document.lookup a name = Document.lookup b name)
    (htexts : ∀ text ∈ e.freeTexts, (Document.textsInMembers a).any (Document.occursIn text) =
      (Document.textsInMembers b).any (Document.occursIn text)) : e.holds a = e.holds b := by
  induction e with
  | literal value => cases value <;> rfl
  | regex pattern => rfl
  | field name => rfl
  | filter inner ih => exact ih hfields htexts
  | freeText text => exact htexts text (List.mem_singleton_self _)
  | quote inner ih => exact ih hfields htexts
  | not inner ih =>
      rw [holds, holds, ih hfields htexts]
  | binary op lhs rhs ihl ihr =>
      have hl := ihl (fun name hname => hfields name (List.mem_append_left _ hname))
        fun text htext => htexts text (List.mem_append_left _ htext)
      have hr := ihr (fun name hname => hfields name (List.mem_append_right _ hname))
        fun text htext => htexts text (List.mem_append_right _ htext)
      cases op with
      | and => rw [holds, holds, hl, hr]
      | or => rw [holds, holds, hl, hr]
      | _ => exact compares_congr hfields _

/-- Whether a predicate looks past the times of some documents and of their rows: it names no field
under which a time stands, and none of its free texts stands in a time. -/
structure Timeless (e : Expr) (timeField : String) (documents : List Members) : Prop where
  fields : ∀ name ∈ e.fields, Document.isTime timeField (Document.root name) = false
  texts : ∀ text ∈ e.freeTexts, ∀ document ∈ documents,
    ∀ members ∈ [document, (Document.row timeField document).log],
      (Document.textsInMembers (Document.timed timeField members)).any
        (Document.occursIn text) = false

theorem Timeless.holds_row {e : Expr} {timeField : String} {documents : List Members}
    (h : e.Timeless timeField documents) (hplain : '.' ∉ timeField.toList) {document : Members}
    (hmem : document ∈ documents) :
    e.holds (Document.row timeField document).log = e.holds document := by
  refine holds_congr (fun name hname => Document.lookup_row hplain (h.fields name hname) document)
    fun text htext => ?_
  have htimes := h.texts text htext document hmem
  rw [Document.any_textsInMembers timeField _ document,
    Document.any_textsInMembers timeField _ (Document.row timeField document).log,
    Document.untimed_row, htimes document (by simp), htimes _ (by simp)]

end Expr

/-! ## Rows with a filter and without -/

theorem selected_filter (timeField : String) (range : TimeRange) (clause : Json)
    (documents : List Members) :
    selected timeField range (some clause) documents =
      (selected timeField range none documents).filter (Condition.met clause) := by
  rw [selected, selected, List.filter_filter]
  refine List.filter_congr fun document _ => ?_
  simp [Bool.and_comm]

theorem PageOptions.Fits.filter {options : PageOptions} {memory : MemoryStore}
    {found : List Members} (h : options.Fits memory found) (p : Members → Bool) :
    options.Fits memory (found.filter p) where
  page := h.page
  ties := fun tick => by
    have hfewer : ((found.filter p).filter (Document.tick options.timeField · = tick)).length ≤
        (found.filter (Document.tick options.timeField · = tick)).length :=
      ((List.filter_sublist).filter _).length_le
    have hround : Pager.roundUp ((found.filter p).filter
          (Document.tick options.timeField · = tick)).length options.fetchSize ≤
        Pager.roundUp (found.filter (Document.tick options.timeField · = tick)).length
          options.fetchSize :=
      Nat.mul_le_mul_right _ (Nat.div_le_div_right (by omega))
    rcases h.ties tick with hfew | hroom
    · exact .inl (Nat.lt_of_le_of_lt hfewer hfew)
    · exact .inr (Nat.le_trans hround hroom)

/-- The pager of a read of all rows in a range that meet a filter. -/
def Config.pager (config : Config) (range : TimeRange) (filter : Option Json) : Pager :=
  .start config.indices range config.pageOptions filter .asc none

theorem planRead_nil (config : Config) (range : TimeRange) :
    planRead config range [] = .ok ⟨.forward (config.pager range none), []⟩ := rfl

theorem planRead_filter {config : Config} {range : TimeRange} {e : Expr} {clause : Json}
    (h : e.clause none = .ok clause) :
    planRead config range [.filter e] = .ok ⟨.forward (config.pager range (some clause)), []⟩ := by
  have hplan : Plan.ofSteps (Plan.optionsOf config) [.filter e] = .ok (⟨some e, .none⟩, []) := by
    simp only [Plan.ofSteps, Plan.absorb, Plan.push, Plan.empty, h]
    rfl
  have hstart : Reading.start? config ⟨range, some e, .none, none⟩ =
      .ok (.forward (config.pager range (some clause))) := by
    simp only [Reading.start?, h]
    rfl
  rw [planRead, hplan]
  change (Reading.start? config ⟨range, some e, .none, none⟩).mapError PlanError.opening >>= _ = _
  rw [hstart]
  rfl

/-- A read of all rows emits those of the selected documents in time order, and ends where there is
room. -/
theorem Reading.run_forward {memory : MemoryStore} {session : Session ScriptedStore}
    {config : Config} {range : TimeRange} {filter : Option Json} (hsession : session.Answers memory)
    (hlimit : memory.maxResultWindow < Word.unsignedLimit) (hfilter : Filter.Compiled filter)
    (hplain : '.' ∉ config.timeField.toList)
    (hdated : ∀ document ∈ memory.searched config.indices, Document.Dated config.timeField document)
    (hrange : range.Writable) (hoptions : config.pageOptions.Sane) :
    let found := selected config.timeField range filter (memory.searched config.indices)
    let stream :=
      ((Reading.forward (config.pager range filter)).run ScriptedStore.store none session).1
    (stream.error = none → stream.batches.flatten =
        (byRank (Document.tick config.timeField) found).map (Document.row config.timeField)) ∧
      (config.pageOptions.Fits memory found → found.length < Word.unsignedLimit →
        stream.error = none) := by
  intro found stream
  let p := config.pager range filter
  have hlive : p.Live (p.searched memory) := Pager.live_start hplain hdated hrange hfilter hoptions
  have howed : p.owed (p.searched memory) = byRank (Document.tick config.timeField) found :=
    Pager.owed_start _
  obtain ⟨result, session', hcollect, hbatches, hend⟩ :=
    hlive.collect hsession hlimit Word.unsignedLimit
  have hstream : stream = result := congrArg Prod.fst hcollect
  rw [howed] at hbatches hend
  rw [hstream]
  refine ⟨fun herror => ?_, fun hfits hlength => ?_⟩
  · have harrange : result.batches.map (Pager.arrange p.direction) = result.batches := List.map_id _
    rw [← harrange]
    exact hbatches herror
  · exact hend (Pager.roomy_start hfits) (by rwa [(perm_byRank _ _).length_eq])

/-- A filter that is pushed selects by the documents as they are stored. That is what running it on
the rows would select where it does not tell the documents from their rows. -/
theorem planRead_filter_rows {memory : MemoryStore} {session : Session ScriptedStore}
    {config : Config} {range : TimeRange} {e : Expr} {clause : Json}
    (hsession : session.Answers memory) (hlimit : memory.maxResultWindow < Word.unsignedLimit)
    (hclause : e.clause none = .ok clause) (hregex : e.hasRegex = false)
    (hplain : '.' ∉ config.timeField.toList)
    (hdated : ∀ document ∈ memory.searched config.indices, Document.Dated config.timeField document)
    (hrange : range.Writable) (hoptions : config.pageOptions.Sane) :
    let documents := selected config.timeField range none (memory.searched config.indices)
    let found := byRank (Document.tick config.timeField) documents
    ∃ pushed whole, planRead config range [.filter e] = .ok ⟨pushed, []⟩ ∧
      planRead config range [] = .ok ⟨whole, []⟩ ∧
      let filtered := (pushed.run ScriptedStore.store none session).1
      let unfiltered := (whole.run ScriptedStore.store none session).1
      (filtered.error = none → filtered.batches.flatten =
        (found.filter (Condition.met clause)).map (Document.row config.timeField)) ∧
      (unfiltered.error = none → unfiltered.batches.flatten =
        found.map (Document.row config.timeField)) ∧
      (e.hasObject = false → e.Timeless config.timeField documents → filtered.error = none →
        unfiltered.error = none →
        filtered.batches.flatten = unfiltered.batches.flatten.filter fun row => e.holds row.log) ∧
      (config.pageOptions.Fits memory documents → documents.length < Word.unsignedLimit →
        filtered.error = none ∧ unfiltered.error = none) := by
  intro documents found
  have hcompiled : Filter.Compiled (some clause) := by
    intro c hc
    obtain rfl : c = clause := by simpa using hc
    exact ⟨e, none, hregex, hclause⟩
  obtain ⟨hfiltered, hfilteredEnds⟩ := @Reading.run_forward memory session config range
    (some clause) hsession hlimit hcompiled hplain hdated hrange hoptions
  obtain ⟨hunfiltered, hunfilteredEnds⟩ := @Reading.run_forward memory session config range none
    hsession hlimit (fun _ h => nomatch h) hplain hdated hrange hoptions
  rw [selected_filter, byRank_filter] at hfiltered
  rw [selected_filter] at hfilteredEnds
  refine ⟨_, _, planRead_filter hclause, planRead_nil config range, hfiltered, hunfiltered,
    fun hobject htimeless hended hended' => ?_,
    fun hfits hlength => ⟨?_, hunfilteredEnds hfits hlength⟩⟩
  · rw [hfiltered hended, hunfiltered hended', List.filter_map]
    congr 1
    refine List.filter_congr fun document hmem => ?_
    have hmem : document ∈ documents := (perm_byRank _ _).mem_iff.mp hmem
    calc Condition.met clause document = e.holds document := by
          rw [Condition.met, (e.asks_clause hclause hregex hobject document).2]
      _ = e.holds (Document.row config.timeField document).log :=
          (htimeless.holds_row hplain hmem).symm
  · exact hfilteredEnds (hfits.filter _) (Nat.lt_of_le_of_lt (List.length_filter_le _ _) hlength)

/-- Two documents behind a comparison and a free text that stands in neither of their times. -/
theorem planRead_filter_rows_timeless :
    let documents : List Members := [
      [("at", .text "2024-05-01T10:00:00.0004Z"), ("note", .text "Disk full"), ("n", .nat 1)],
      [("at", .text "2024-05-01T12:00:00+02:00"), ("note", .text "ok"), ("n", .nat 1)]]
    let memory : MemoryStore := ⟨[("logs", documents)], 10⟩
    let config : Config := { Config.ofUrl "http://store" with timeField := "at", fetchSize := 2 }
    let range : TimeRange := ⟨.utc 1714550000000000000, .utc 1714560000000000000⟩
    let e : Expr := .binary .and (.freeText "disk") (.binary .eq (.field "n") (.literal (.nat 1)))
    ∃ pushed whole, planRead config range [.filter e] = .ok ⟨pushed, []⟩ ∧
      planRead config range [] = .ok ⟨whole, []⟩ ∧
      let filtered := (pushed.run ScriptedStore.store none ⟨⟨memory, [], []⟩, .zero⟩).1
      let unfiltered := (whole.run ScriptedStore.store none ⟨⟨memory, [], []⟩, .zero⟩).1
      filtered.error = none ∧ unfiltered.error = none ∧
        filtered.batches.flatten =
          unfiltered.batches.flatten.filter fun row => e.holds row.log := by
  intro documents memory config range e
  have hdocuments : memory.searched config.indices = documents := by cbv
  have hdated : ∀ document ∈ memory.searched config.indices,
      Document.Dated config.timeField document := by
    rw [hdocuments]
    intro document hmem
    simp only [documents, List.mem_cons, List.not_mem_nil, or_false] at hmem
    rcases hmem with rfl | rfl
    · exact .of_parse? rfl (by decide +kernel : _ = some ⟨1714557600000400000, 0⟩)
        (by decide +kernel)
    · exact .of_parse? rfl (by decide +kernel : _ = some ⟨1714557600000000000, 120⟩)
        (by decide +kernel)
  have hrange : range.Writable :=
    ⟨⟨by decide +kernel, by decide +kernel, by decide⟩,
      ⟨by decide +kernel, by decide +kernel, by decide⟩⟩
  obtain ⟨pushed, whole, hpushed, hwhole, -, -, hrows, hends⟩ := @planRead_filter_rows memory
    ⟨⟨memory, [], []⟩, .zero⟩ config range e _ ⟨rfl, rfl⟩ (by decide) rfl rfl (by decide) hdated
    hrange ⟨by decide, by decide, by decide⟩
  rw [hdocuments] at hrows hends
  have hround : ∀ count ≤ 2, Pager.roundUp count 2 ≤ min 10000 10 := by decide
  have hfew : (selected "at" range none documents).length ≤ 2 := List.length_filter_le _ documents
  have htimeless : e.Timeless "at" (selected "at" range none documents) := by
    refine ⟨by decide +kernel, fun text htext document hmem => ?_⟩
    have hall : ∀ text ∈ e.freeTexts, ∀ document ∈ documents,
        ∀ members ∈ [document, (Document.row "at" document).log],
          (Document.textsInMembers (Document.timed "at" members)).any (Document.occursIn text) =
            false := by decide +kernel
    exact hall text htext document (List.mem_filter.mp hmem).1
  obtain ⟨hended, hended'⟩ := hends
    ⟨by decide, fun tick => .inr (hround _ (Nat.le_trans (List.length_filter_le _ _) hfew))⟩
    (Nat.lt_of_le_of_lt hfew (by decide))
  exact ⟨pushed, whole, hpushed, hwhole, hended, hended', hrows rfl htimeless hended hended'⟩

/-- Every row has a time under the time key. Where documents have theirs under another key, a filter
for rows with a time keeps all rows, but none once it is pushed. -/
theorem planRead_filter_time :
    let documents : List Members := [[("@timestamp", .text "2024-01-01T00:00:10Z"), ("id", .nat 1)]]
    let memory : MemoryStore := ⟨[("logs", documents)], 10000⟩
    let config : Config := { Config.ofUrl "http://store" with indices := ["logs"] }
    let range : TimeRange := ⟨.utc 1704067200000000000, .utc 1704067260000000000⟩
    let e : Expr := .binary .ne (.field "time") (.literal .null)
    ∃ pushed whole, planRead config range [.filter e] = .ok ⟨pushed, []⟩ ∧
      planRead config range [] = .ok ⟨whole, []⟩ ∧
      let filtered := (pushed.run ScriptedStore.store none ⟨⟨memory, [], []⟩, .zero⟩).1
      let unfiltered := (whole.run ScriptedStore.store none ⟨⟨memory, [], []⟩, .zero⟩).1
      filtered.error = none ∧ unfiltered.error = none ∧ filtered.batches.flatten.length = 0 ∧
        (unfiltered.batches.flatten.filter fun row => e.holds row.log).length = 1 := by
  refine ⟨_, _, planRead_filter rfl, planRead_nil _ _, ?_⟩
  exact ⟨by cbv, by cbv, by cbv, by cbv⟩

end Sluice
