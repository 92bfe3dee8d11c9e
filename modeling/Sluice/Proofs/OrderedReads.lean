import Sluice.Proofs.Draining

/-!
Reads of rows in time order. A read forwards emits the first of the selected documents in ascending
order of their times, and a read of the tail emits the last of them.
-/
namespace Sluice

open Sorting

/-- Words in which sizes are kept, and a page that is not empty. -/
structure PageOptions.Sane (options : PageOptions) : Prop where
  fetchSize_pos : 0 < options.fetchSize
  fetchSize_lt : options.fetchSize < Word.unsignedLimit
  deepPagingLimit_lt : options.deepPagingLimit < Word.unsignedLimit

/-- Room to read documents to the end: a page fits the store's window, and for each millisecond that
has a page of documents or more, all its pages fit the window and the limit on deep paging. -/
structure PageOptions.Fits (options : PageOptions) (memory : MemoryStore) (found : List Members) :
    Prop where
  page : options.fetchSize ≤ memory.maxResultWindow
  ties : ∀ tick, let count := (found.filter (Document.tick options.timeField · = tick)).length
    count < options.fetchSize ∨ Pager.roundUp count options.fetchSize ≤
      min options.deepPagingLimit memory.maxResultWindow

theorem PageOptions.Fits.perm {options : PageOptions} {memory : MemoryStore}
    {found found' : List Members} (h : options.Fits memory found) (hperm : found.Perm found') :
    options.Fits memory found' where
  page := h.page
  ties := fun tick => by
    rw [← (hperm.filter _).length_eq]
    exact h.ties tick

/-- The first `n` elements, or all of them. -/
def upTo {α : Type} (limit : Option Nat) (l : List α) : List α :=
  match limit with
  | some n => l.take n
  | none => l

theorem Document.Dated.of_parse? {timeField s : String} {document : Members} {m : Moment}
    (hget : Members.get? timeField document = some (.text s)) (hm : Moment.parse? s = some m)
    (hcivil : 1 ≤ m.localDate.year ∧ m.localDate.year ≤ 9998 ∧ m.offset.natAbs < 24 * 60) :
    Dated timeField document :=
  .inr ⟨s, m, hget, hm, hcivil.1, hcivil.2.1, hcivil.2.2⟩

namespace Pager

variable {memory : MemoryStore} {patterns : List String} {range : TimeRange}
  {options : PageOptions} {filter : Option Json} {direction : Direction} {limit : Option Nat}

theorem between_start {documents : List Members}
    (htimed : ∀ document ∈ documents, Document.Timed options.timeField document)
    (hrange : range.Writable) (hfilter : Filter.Compiled filter)
    (hsize : options.fetchSize < Word.unsignedLimit)
    (hdeep : options.deepPagingLimit < Word.unsignedLimit) :
    (start patterns range options filter direction limit).Between documents where
  timed := htimed
  decides := hfilter.decides
  fetchSize_lt := hsize
  deepPagingLimit_lt := hdeep
  range := hrange
  not_done := by simp [start]
  offset := fun _ => rfl
  bridge := fun hbridging => nomatch hbridging

theorem live_start {documents : List Members} (hplain : '.' ∉ options.timeField.toList)
    (hdated : ∀ document ∈ documents, Document.Dated options.timeField document)
    (hrange : range.Writable) (hfilter : Filter.Compiled filter) (hoptions : options.Sane) :
    (start patterns range options filter direction limit).Live documents where
  toBetween := between_start (fun document hmem => (hdated document hmem).timed hplain) hrange
    hfilter hoptions.fetchSize_lt hoptions.deepPagingLimit_lt
  plain := hplain
  dated := hdated
  fetchSize_pos := hoptions.fetchSize_pos

/-- At the start all of the selected documents are owed, up to the limit. -/
theorem owed_start (documents : List Members) :
    (start patterns range options filter direction limit).owed documents =
      upTo limit (byRank (fun document =>
        direction.rank (Document.tick options.timeField document))
          (selected options.timeField range filter documents)) := by
  cases limit <;> rfl

theorem roomy_start (h : options.Fits memory
      (selected options.timeField range filter (memory.searched patterns))) :
    (start patterns range options filter direction limit).Roomy memory where
  page := h.page
  ties := by
    intro document hmem
    obtain ⟨-, ⟨m, hm, hcovers⟩, -⟩ := mem_within.mp hmem
    have hties := h.ties m.truncateMillis.nanos
    have hcount := @filter_tick_within (start patterns range options filter direction limit)
      (memory.searched patterns) m hcovers
    have hperm := (perm_byRank (fun document =>
      direction.rank (Document.tick options.timeField document))
        (selected options.timeField range filter (memory.searched patterns))).filter
          (Document.tick options.timeField · = m.truncateMillis.nanos)
    have hlength : ((start patterns range options filter direction limit).ties
        (memory.searched patterns) m.truncateMillis.nanos).length =
          ((selected options.timeField range filter (memory.searched patterns)).filter
            (Document.tick options.timeField · = m.truncateMillis.nanos)).length := by
      rw [← hcount]
      exact hperm.length_eq
    rw [← hlength] at hties
    rw [Document.tick_eq hm]
    exact hties

end Pager

/-! ## Tails -/

namespace ReadRequest

variable {request : ReadRequest} {filter : Option Json}

end ReadRequest

/-- The batches of a descending pager, taken from the last to the first, hold its rows backwards. -/
theorem flatten_reverse_of_arranged {batches : List (List Row)} {rows : List Row}
    (h : (batches.map (Pager.arrange .desc)).flatten = rows) :
    batches.reverse.flatten = rows.reverse := by
  have harrange : ∀ batch : List Row, (Pager.arrange .desc batch).reverse = batch :=
    List.reverse_reverse
  rw [← h, List.reverse_flatten, List.map_map]
  congr 2
  refine (List.map_id' _).symm.trans (List.map_congr_left fun batch _ => ?_)
  exact (harrange batch).symm

theorem Stream.flatten_reversed {stream : Stream} (h : stream.error = none) :
    stream.reversed.batches.flatten = stream.batches.reverse.flatten := by
  simp only [reversed, h]
  cases stream.batches.reverse.flatten with
  | nil => rfl
  | cons row rows => simp

theorem Stream.error_reversed (stream : Stream) : stream.reversed.error = stream.error := by
  unfold reversed
  cases h : stream.error <;> rfl

end Sluice
