import Sluice.Pager
import Sluice.Proofs.Answers
import Sluice.Proofs.Selection

/-!
One search of a pager. What a pager still owes is a prefix of the selected documents in their order;
a search hands over the first part of it and owes the rest, or ends, or starts to bridge a time.
-/
namespace Sluice

/-! ## Documents and rows -/

namespace Document

/-- Without the time field, or with a civil time as RFC 3339 text under it. -/
def Dated (timeField : String) (document : Members) : Prop :=
  Members.get? timeField document = none ∨
    ∃ s m, Members.get? timeField document = some (.text s) ∧ Moment.parse? s = some m ∧ m.Civil

/-- The row of a document: its time moves to the time key. -/
def row (timeField : String) (document : Members) : Row :=
  match time? timeField document with
  | some m => ⟨(Members.erase timeField document).insert timeKey (.text m.format), false⟩
  | none => ⟨document, false⟩

theorem lookup_of_plain {field : String} (h : '.' ∉ field.toList) (document : Members) :
    lookup document field = (Members.get? field document).bind present := by
  have hsplit : field.toList.splitOn '.' = [field.toList] :=
    List.splitOnP_eq_singleton fun c hc => by
      simp only [beq_eq_false_iff_ne, ne_eq]
      exact fun he => h (he ▸ hc)
  unfold lookup
  cases hget : Members.get? field document with
  | some value => rfl
  | none => simp [hsplit, hget]

variable {timeField : String} {document : Members}

theorem Dated.timed (hplain : '.' ∉ timeField.toList) (h : Dated timeField document) :
    Timed timeField document := by
  have hlookup := lookup_of_plain hplain document
  rcases h with h | ⟨s, m, h, hm, -⟩
  · exact .inl (by rw [hlookup, h, Option.bind_none])
  · exact .inr ⟨s, m, by rw [hlookup, h]; rfl, hm⟩

theorem Dated.civil (hplain : '.' ∉ timeField.toList) (h : Dated timeField document) {m : Moment}
    (hm : time? timeField document = some m) : m.Civil := by
  have hlookup := lookup_of_plain hplain document
  rcases h with h | ⟨s, t, h, ht, hcivil⟩
  · rw [time?, hlookup, h] at hm
    cases hm
  · rw [time?, hlookup, h] at hm
    have hsome : (Option.some (Json.text s)).bind present = some (.text s) := rfl
    rw [hsome, Option.bind_some, Moment.ofStored?_text, ht, Option.some.injEq] at hm
    exact hm ▸ hcivil

/-- The moment that a document's row is told apart by. -/
def key (timeField : String) (document : Members) : Moment :=
  ((time? timeField document).getD .epoch).truncateMillis

theorem key_nanos (hm : (time? timeField document).isSome = true) :
    (key timeField document).nanos = tick timeField document := by
  obtain ⟨m, hm⟩ := Option.isSome_iff_exists.mp hm
  rw [key, hm, Option.getD_some, tick_eq hm]

theorem Dated.civil_key (hplain : '.' ∉ timeField.toList) (h : Dated timeField document)
    (hm : (time? timeField document).isSome = true) : (key timeField document).Civil := by
  obtain ⟨m, hm⟩ := Option.isSome_iff_exists.mp hm
  rw [key, hm, Option.getD_some]
  exact (h.civil hplain hm).truncateMillis

theorem row_eta (timeField : String) (document : Members) :
    (⟨(row timeField document).log, false⟩ : Row) = row timeField document := by
  unfold row
  cases time? timeField document <;> rfl

/-- What a pager reads off a document that has a time, unless that time is at the end of a path. -/
theorem Timed.keyed (h : Timed timeField document) (hm : (time? timeField document).isSome = true) :
    Pager.keyed timeField document = match Members.get? timeField document with
      | some _ => .ok (key timeField document, (row timeField document).log)
      | none => .error (.rowWithoutTime timeField) := by
  obtain ⟨m, hm⟩ := Option.isSome_iff_exists.mp hm
  have htime := hm
  cases hget : Members.get? timeField document with
  | none => simp only [Pager.keyed, hget]
  | some value =>
      have hlookup : lookup document timeField = present value := by simp only [lookup, hget]
      rcases h with hnone | ⟨s, t, htext, ht⟩
      · rw [time?, hnone] at hm
        cases hm
      · rw [hlookup] at htext
        obtain rfl : value = .text s := by
          cases value with
          | null => cases htext
          | _ => exact Option.some.inj htext
        rw [time?, hlookup, htext, Option.bind_some, Moment.ofStored?_text, ht,
          Option.some.injEq] at hm
        subst hm
        simp only [Pager.keyed, hget, Moment.ofStored, ht, row, htime, key, Option.getD_some]

theorem Dated.keyed (hplain : '.' ∉ timeField.toList) (h : Dated timeField document)
    (hm : (time? timeField document).isSome = true) :
    Pager.keyed timeField document = .ok (key timeField document, (row timeField document).log) := by
  rw [(h.timed hplain).keyed hm]
  rcases h with hnone | ⟨s, m, hget, -⟩
  · rw [time?, lookup_of_plain hplain, hnone] at hm
    cases hm
  · rw [hget]

theorem Timed.writable_key (h : Timed timeField document)
    (hm : (time? timeField document).isSome = true) : (key timeField document).Writable := by
  obtain ⟨m, hm⟩ := Option.isSome_iff_exists.mp hm
  rw [key, hm, Option.getD_some]
  rcases h with hnone | ⟨s, t, htext, ht⟩
  · rw [time?, hnone] at hm
    cases hm
  · rw [time?, htext, Option.bind_some, Moment.ofStored?_text, ht, Option.some.injEq] at hm
    exact hm ▸ (Moment.writable_of_parse? ht).truncateMillis

end Document

namespace Pager

open Sorting

/-! ## What is left to read -/

/-- What a direction reads, in the order of a batch: a batch ascends. -/
def arrange {α : Type} (direction : Direction) (rows : List α) : List α :=
  match direction with
  | .asc => rows
  | .desc => rows.reverse

@[simp] theorem arrange_nil {α : Type} (direction : Direction) :
    arrange direction ([] : List α) = [] := by
  cases direction <;> rfl

@[simp] theorem length_arrange {α : Type} (direction : Direction) (rows : List α) :
    (arrange direction rows).length = rows.length := by
  cases direction with
  | asc => rfl
  | desc => exact List.length_reverse

theorem map_arrange {α β : Type} (f : α → β) (direction : Direction) (rows : List α) :
    (arrange direction rows).map f = arrange direction (rows.map f) := by
  cases direction with
  | asc => rfl
  | desc => exact List.map_reverse

theorem arrange_arrange {α : Type} (direction : Direction) (rows : List α) :
    arrange direction (arrange direction rows) = rows := by
  cases direction with
  | asc => rfl
  | desc => exact List.reverse_reverse rows

/-- Where a document stands in the order of reading. -/
def rank (p : Pager) (document : Members) : Int :=
  p.direction.rank (Document.tick p.options.timeField document)

/-- The selected documents in what is left of the range, in the order of reading. -/
def within (p : Pager) (documents : List Members) : List Members :=
  byRank p.rank (selected p.options.timeField p.range p.filter documents)

/-- The selected documents at one millisecond. -/
def ties (p : Pager) (documents : List Members) (tick : Int) : List Members :=
  documents.filter fun document =>
    ((Document.time? p.options.timeField document).any (·.truncateMillis.nanos = tick)) &&
      p.filter.toList.all (Condition.met · document)

/-- As many as may still be emitted. -/
def clip {α : Type} (p : Pager) (rows : List α) : List α :=
  match p.remaining with
  | some n => rows.take n
  | none => rows

/-- The documents whose rows are still to be handed over. -/
def owed (p : Pager) (documents : List Members) : List Members :=
  p.clip ((p.within documents).drop p.bridgeOffset)

/-- What a read is asked of, and what paging relies on. -/
structure Sound (p : Pager) (documents : List Members) : Prop where
  timed : ∀ document ∈ documents, Document.Timed p.options.timeField document
  decides : ∀ clause ∈ p.filter.toList, Condition.Decides clause
  fetchSize_lt : p.options.fetchSize < Word.unsignedLimit
  deepPagingLimit_lt : p.options.deepPagingLimit < Word.unsignedLimit
  range : p.range.Writable

/-- What keeps a read from failing on its own: the documents have civil times, not at the end of a
path, and a page holds some. -/
structure Clear (p : Pager) (documents : List Members) : Prop where
  plain : '.' ∉ p.options.timeField.toList
  dated : ∀ document ∈ documents, Document.Dated p.options.timeField document
  fetchSize_pos : 0 < p.options.fetchSize

variable {p : Pager} {documents : List Members}

theorem mem_within {document : Members} :
    document ∈ p.within documents ↔
      document ∈ documents ∧ (∃ m, Document.time? p.options.timeField document = some m ∧
        p.range.covers m = true) ∧ p.filter.toList.all (Condition.met · document) = true := by
  rw [within, (perm_byRank _ _).mem_iff, mem_selected]

theorem pairwise_within (p : Pager) (documents : List Members) :
    (p.within documents).Pairwise fun a b => p.rank a ≤ p.rank b := pairwise_byRank _ _

theorem within_of_isEmpty (h : p.range.isEmpty = true) : p.within documents = [] := by
  refine List.eq_nil_iff_forall_not_mem.mpr fun document hmem => ?_
  obtain ⟨-, ⟨m, -, hcovers⟩, -⟩ := mem_within.mp hmem
  rw [TimeRange.not_covers_of_isEmpty h] at hcovers
  cases hcovers

/-- Leaving times behind leaves their documents behind. -/
theorem within_range {range : TimeRange} {keep : Int → Bool}
    (h : ∀ m : Moment, range.covers m = (p.range.covers m && keep m.truncateMillis.nanos)) :
    ({ p with range := range } : Pager).within documents =
      (p.within documents).filter fun document =>
        keep (Document.tick p.options.timeField document) := by
  have hrank : ({ p with range := range } : Pager).rank = p.rank := rfl
  rw [within, within, hrank, ← byRank_filter, selected, selected, List.filter_filter]
  congr 1
  refine List.filter_congr fun document _ => ?_
  cases htime : Document.time? p.options.timeField document with
  | none => simp only [Option.any_none, Bool.false_and, Bool.and_false]
  | some m =>
      simp only [Option.any_some, Document.tick_eq htime, h, Bool.and_assoc, Bool.and_comm]

theorem tick_of_mem_ties {tick : Int} {document : Members} (h : document ∈ p.ties documents tick) :
    (Document.time? p.options.timeField document).isSome = true ∧
      Document.tick p.options.timeField document = tick := by
  obtain ⟨-, h⟩ := List.mem_filter.mp h
  obtain ⟨h, -⟩ := Bool.and_eq_true_iff.mp h
  obtain ⟨m, hm, htick⟩ := (Option.any_eq_true _ _).mp h
  exact ⟨by rw [hm]; rfl, by rw [Document.tick_eq hm]; exact of_decide_eq_true htick⟩

theorem pairwise_ties (p : Pager) (documents : List Members) (tick : Int) :
    (p.ties documents tick).Pairwise fun a b => p.rank a ≤ p.rank b := by
  refine List.pairwise_of_forall_mem_list fun a ha b hb => ?_
  have hrank : p.rank a = p.rank b := by
    rw [rank, rank, (tick_of_mem_ties ha).2, (tick_of_mem_ties hb).2]
  exact Int.le_of_eq hrank

/-- The documents at a millisecond of the range are among those left to read, in their order. -/
theorem filter_tick_within {m : Moment} (hm : p.range.covers m = true) :
    (p.within documents).filter (fun document =>
        Document.tick p.options.timeField document = m.truncateMillis.nanos) =
      p.ties documents m.truncateMillis.nanos := by
  have hselected : (selected p.options.timeField p.range p.filter documents).filter
      (fun document => Document.tick p.options.timeField document = m.truncateMillis.nanos) =
        p.ties documents m.truncateMillis.nanos := by
    rw [selected, List.filter_filter, ties]
    refine List.filter_congr fun document _ => ?_
    cases htime : Document.time? p.options.timeField document with
    | none => simp only [Option.any_none, Bool.false_and, Bool.and_false]
    | some t =>
        rw [Option.any_some, Option.any_some, Document.tick_eq htime, ← Bool.and_assoc]
        congr 1
        rw [Bool.eq_iff_iff]
        simp only [TimeRange.covers, Bool.and_eq_true, decide_eq_true_eq] at hm ⊢
        omega
  rw [within, ← byRank_filter, hselected, byRank_eq_self (pairwise_ties p documents _)]

/-! ## Searches -/

/-- The query of a search for the documents that meet a clause. -/
def query (p : Pager) (start : Nat) (clause : Json) : Query where
  start
  size := p.requestSize
  sort := some (p.options.timeField, p.direction)
  clauses := clause :: p.filter.toList
  aggregations := none

theorem request_eq (p : Pager) (start : Nat) (clause : Json) :
    p.request start clause = ⟨p.indices, (p.query start clause).toJson⟩ := rfl

theorem requestSize_le (p : Pager) : p.requestSize ≤ p.options.fetchSize := by
  unfold requestSize
  split
  · exact Nat.min_le_right _ _
  · exact Nat.le_refl _

theorem sorted_query (htimed : ∀ document ∈ documents, Document.Timed p.options.timeField document)
    {start : Nat} {clause : Json} {found : List Members}
    (hfound : ∀ document ∈ found, document ∈ documents ∧
      (Document.time? p.options.timeField document).isSome = true) :
    (p.query start clause).sorted found = byRank p.rank found := by
  refine sortBy_eq_byRank fun a ha b hb => ?_
  obtain ⟨ha, hs⟩ := hfound a ha
  obtain ⟨hb, ht⟩ := hfound b hb
  obtain ⟨s, hs⟩ := Option.isSome_iff_exists.mp hs
  obtain ⟨t, ht⟩ := Option.isSome_iff_exists.mp ht
  exact goesBefore_eq (htimed a ha) (htimed b hb) hs ht

/-- A page is the head of the documents left to read. -/
theorem Sound.answer_page (h : p.Sound documents) :
    (p.query 0 (p.range.clause p.options.timeField)).answer documents =
      ⟨(p.within documents).length, (p.within documents).take p.requestSize, []⟩ := by
  have hmatched : documents.filter
      (p.query 0 (p.range.clause p.options.timeField)).matched =
        selected p.options.timeField p.range p.filter documents :=
    List.filter_congr fun document hmem => by
      rw [Query.matched, query, List.all_cons,
        Condition.met_range_clause (h.timed document hmem) h.range]
  have hsorted := @sorted_query p documents h.timed 0 (p.range.clause p.options.timeField)
    (selected p.options.timeField p.range p.filter documents) fun document hmem => by
      obtain ⟨hdocument, ⟨m, hm, -⟩, -⟩ := mem_selected.mp hmem
      exact ⟨hdocument, by rw [hm]; rfl⟩
  rw [Query.answer, hmatched, hsorted]
  rfl

/-- A bridge's search starts behind the documents it has read. -/
theorem Sound.answer_bridge (h : p.Sound documents) {instant : Moment} (hi : instant.Writable) :
    (p.query p.bridgeOffset (instant.clause p.options.timeField)).answer documents =
      ⟨(p.ties documents instant.truncateMillis.nanos).length,
        ((p.ties documents instant.truncateMillis.nanos).drop p.bridgeOffset).take
          p.requestSize, []⟩ := by
  have hmatched : documents.filter
      (p.query p.bridgeOffset (instant.clause p.options.timeField)).matched =
        p.ties documents instant.truncateMillis.nanos :=
    List.filter_congr fun document hmem => by
      rw [Query.matched, query, List.all_cons,
        Condition.met_moment_clause (h.timed document hmem) hi]
  have hsorted := @sorted_query p documents h.timed p.bridgeOffset
    (instant.clause p.options.timeField) (p.ties documents instant.truncateMillis.nanos)
    fun document hmem => ⟨(List.mem_filter.mp hmem).1, (tick_of_mem_ties hmem).1⟩
  rw [Query.answer, hmatched, hsorted, byRank_eq_self (pairwise_ties p documents _)]
  rfl

end Pager
end Sluice
