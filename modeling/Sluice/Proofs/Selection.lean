import Sluice.Proofs.Moments
import Sluice.Proofs.Search

/-!
Which documents a search for times selects, and in which order: those whose time, at the
millisecond, lies in the range or is the instant that is asked for.
-/
namespace Sluice

namespace Document

/-- The time of a document as the store sees it. -/
def time? (timeField : String) (document : Members) : Option Moment :=
  (lookup document timeField).bind Moment.ofStored?

/-- The millisecond of a document's time, in nanoseconds; 0 without a time. -/
def tick (timeField : String) (document : Members) : Int :=
  ((time? timeField document).map (·.truncateMillis.nanos)).getD 0

/-- Without a time, or with one as RFC 3339 text. -/
def Timed (timeField : String) (document : Members) : Prop :=
  lookup document timeField = none ∨
    ∃ s m, lookup document timeField = some (.text s) ∧ Moment.parse? s = some m

theorem tick_eq {timeField : String} {document : Members} {m : Moment}
    (h : time? timeField document = some m) :
    tick timeField document = m.truncateMillis.nanos := by
  rw [tick, h, Option.map_some, Option.getD_some]

/-- A time under the field's own name is found, with or without dots in it. -/
theorem lookup_eq_of_get? {timeField : String} {document : Members} {value : Json} {m : Moment}
    (h : Members.get? timeField document = some value) (hm : Moment.ofStored? value = some m) :
    lookup document timeField = some value := by
  rw [lookup, h]
  cases value with
  | null => cases hm
  | _ => rfl

theorem time?_text {timeField s : String} {document : Members}
    (h : lookup document timeField = some (.text s)) :
    time? timeField document = Moment.parse? s := by
  rw [time?, h, Option.bind_some, Moment.ofStored?_text]

end Document

theorem Json.eq_of_same_text {value : Json} {s : String} (h : value.same (.text s) = true) :
    value = .text s := by
  cases value with
  | text t => simpa [Json.same] using h
  | _ => simp [Json.same] at h

/-- Whether a time lies in the range at the millisecond. -/
def TimeRange.covers (range : TimeRange) (m : Moment) : Bool :=
  range.start.truncateMillis.nanos ≤ m.truncateMillis.nanos &&
    m.truncateMillis.nanos < range.stop.truncateMillis.nanos

/-- A range whose ends can be written. -/
structure TimeRange.Writable (range : TimeRange) : Prop where
  start : range.start.Writable
  stop : range.stop.Writable

/-- Whether a time lies in a range as far as the ends of the range can be written. -/
structure TimeRange.Admits (range : TimeRange) (m : Moment) : Prop where
  start : range.start.Writable → range.start.truncateMillis.nanos ≤ m.truncateMillis.nanos
  stop : range.stop.Writable → m.truncateMillis.nanos < range.stop.truncateMillis.nanos

theorem TimeRange.not_covers_of_isEmpty {range : TimeRange} (h : range.isEmpty = true)
    (m : Moment) : range.covers m = false := by
  have hends : range.stop.nanos ≤ range.start.nanos := by simpa [isEmpty] using h
  have hends := Moment.truncateMillis_mono hends
  simp only [covers, Bool.and_eq_false_iff, decide_eq_false_iff_not]
  omega

namespace Condition

open Document

variable {timeField : String} {document : Members}

/-! ## Clauses on times -/

theorem holds_range_clause {value : Json} {m : Moment} {range : TimeRange}
    (hvalue : lookup document timeField = some value) (hm : Moment.ofStored? value = some m)
    (hr : range.Writable) :
    holds document (ofJson (range.clause timeField)) = .ok (range.covers m) := by
  have hgte := Json.order?_stored hm (Moment.parse?_format hr.start)
  have hlt := Json.order?_stored hm (Moment.parse?_format hr.stop)
  rw [TimeRange.clause, holds_range, hvalue]
  refine congrArg Except.ok ?_
  rw [Bool.eq_iff_iff]
  simp only [Option.any_some, List.all_cons, List.all_nil, withinBound, hgte, hlt, Bool.and_true,
    TimeRange.covers, Bool.and_eq_true, Bool.or_eq_true, beq_iff_eq, Option.some.injEq,
    Int.compare_eq_lt, Int.compare_eq_gt, Int.compare_eq_eq, decide_eq_true_eq]
  omega

theorem holds_moment_clause {value : Json} {m instant : Moment}
    (hvalue : lookup document timeField = some value) (hm : Moment.ofStored? value = some m)
    (hi : instant.Writable) :
    holds document (ofJson (instant.clause timeField)) =
      .ok (decide (m.truncateMillis.nanos = instant.truncateMillis.nanos)) := by
  have horder := Json.order?_stored hm (Moment.parse?_format hi)
  rw [Moment.clause, holds_term rfl, hvalue]
  refine congrArg Except.ok ?_
  rw [Bool.eq_iff_iff]
  simp only [Option.any_some, Json.equals, horder, Bool.or_eq_true, beq_iff_eq, Option.some.injEq,
    Int.compare_eq_eq, decide_eq_true_eq]
  refine ⟨fun h => h.elim (fun hsame => ?_) id, .inr⟩
  -- A value that is the text itself stands for the instant that was written.
  rw [Json.eq_of_same_text hsame, Moment.ofStored?_text, Moment.parse?_format hi] at hm
  cases hm
  rfl

theorem met_range_clause {range : TimeRange} (hd : Timed timeField document)
    (hr : range.Writable) :
    met (range.clause timeField) document = (time? timeField document).any range.covers := by
  rcases hd with hd | ⟨s, m, hd, hm⟩
  · rw [met, TimeRange.clause, holds_range, time?, hd]
    rfl
  · have hstored := (Moment.ofStored?_text s).trans hm
    rw [met, holds_range_clause hd hstored hr, time?_text hd, hm, Option.any_some]

/-- What meets a range lies in it, also where an end of it cannot be written. -/
theorem admits_of_met {range : TimeRange}
    (hd : Timed timeField document)
    (h : met (range.clause timeField) document = true) :
    ∃ m, time? timeField document = some m ∧ range.Admits m := by
  have hholds := @holds_range document timeField
    [("gte", .text range.start.format), ("lt", .text range.stop.format)]
  rw [met, TimeRange.clause, hholds] at h
  rcases hd with hd | ⟨s, m, hd, hm⟩
  · rw [hd] at h
    cases h
  · simp only [hd, Option.any_some, List.all_cons, List.all_nil, withinBound, Bool.and_true,
      Bool.and_eq_true, Bool.or_eq_true, beq_iff_eq] at h
    refine ⟨m, (time?_text hd).trans hm, fun hstart => ?_, fun hstop => ?_⟩
    · have hgte := h.1
      simp only [Json.order?_text hm (Moment.parse?_format hstart), Option.some.injEq,
        Int.compare_eq_gt, Int.compare_eq_eq] at hgte
      omega
    · have hlt := h.2
      simpa only [Json.order?_text hm (Moment.parse?_format hstop), Option.some.injEq,
        Int.compare_eq_lt] using hlt

theorem met_moment_clause {m : Moment} (hd : Timed timeField document) (hm : m.Writable) :
    met (m.clause timeField) document =
      (time? timeField document).any fun t => t.truncateMillis.nanos = m.truncateMillis.nanos := by
  rcases hd with hd | ⟨s, t, hd, ht⟩
  · rw [met, Moment.clause, holds_term rfl, time?, hd]
    rfl
  · have hstored := (Moment.ofStored?_text s).trans ht
    rw [met, holds_moment_clause hd hstored hm, time?_text hd, ht, Option.any_some]

/-- The clauses that a read puts on times mean what its cursor means, for every time as text or as
a number: both look at whole milliseconds, downward. -/
theorem holds_time_clauses {value : Json} {t instant : Moment} {range : TimeRange}
    (hvalue : Members.get? timeField document = some value)
    (ht : Moment.ofStored? value = some t) (hrange : range.Writable)
    (hinstant : instant.Writable) :
    holds document (ofJson (range.clause timeField)) =
        .ok (decide (range.start.truncateMillis.nanos ≤ t.truncateMillis.nanos ∧
          t.truncateMillis.nanos < range.stop.truncateMillis.nanos)) ∧
      holds document (ofJson (instant.clause timeField)) =
        .ok (decide (t.truncateMillis.nanos = instant.truncateMillis.nanos)) ∧
      ∀ m : Moment, m.truncateMillis.nanos =
        m.nanos / Moment.nanosPerMilli * Moment.nanosPerMilli := by
  have hlookup := lookup_eq_of_get? hvalue ht
  refine ⟨?_, holds_moment_clause hlookup ht hinstant, fun m => ?_⟩
  · rw [holds_range_clause hlookup ht hrange, TimeRange.covers, Bool.decide_and]
  · rw [Moment.truncateMillis_nanos]
    simp only [Moment.nanosPerMilli]
    omega

/-- Half a millisecond before the epoch lies in the last millisecond before it, as do a range that
starts later in that millisecond and an instant at its end, whatever their offsets. -/
theorem holds_time_clauses_before_epoch :
    let document : Members := [("at", .text "1969-12-31T23:59:59.9995Z")]
    let t : Moment := .utc (-500000)
    let range : TimeRange := ⟨⟨-100000, 330⟩, .epoch⟩
    let instant : Moment := ⟨-1, -60⟩
    Members.get? "at" document = some (.text "1969-12-31T23:59:59.9995Z") ∧
      Moment.ofStored? (.text "1969-12-31T23:59:59.9995Z") = some t ∧ range.Writable ∧
      instant.Writable ∧ holds document (ofJson (range.clause "at")) = .ok true ∧
      holds document (ofJson (instant.clause "at")) = .ok true := by
  intro document t range instant
  have hvalue : Members.get? "at" document = some (.text "1969-12-31T23:59:59.9995Z") := rfl
  have ht : Moment.ofStored? (.text "1969-12-31T23:59:59.9995Z") = some t := by decide +kernel
  have hrange : range.Writable :=
    ⟨⟨by decide, by decide, by decide⟩, ⟨by decide, by decide, by decide⟩⟩
  have hinstant : instant.Writable := ⟨by decide, by decide, by decide⟩
  obtain ⟨hcovers, hequals, -⟩ := holds_time_clauses hvalue ht hrange hinstant
  exact ⟨hvalue, ht, hrange, hinstant, hcovers, hequals⟩

/-- At an offset of a day the clauses hold whole seconds, which are no times to the store: a time
inside the range does not meet its clause, nor the clause of its own instant. -/
theorem holds_time_clauses_day_ahead :
    let document : Members := [("at", .text "2024-01-01T00:00:30Z")]
    let t : Moment := .utc 1704067230000000000
    let range : TimeRange := ⟨⟨1704067200000000000, 1440⟩, ⟨1704067260000000000, 1440⟩⟩
    let instant : Moment := ⟨1704067230000000000, 1440⟩
    (∀ m ∈ [range.start, range.stop, instant],
        0 ≤ m.localDate.year ∧ m.localDate.year ≤ 9999) ∧
      Members.get? "at" document = some (.text "2024-01-01T00:00:30Z") ∧
      Moment.ofStored? (.text "2024-01-01T00:00:30Z") = some t ∧
      range.clause "at" = Clause.onField "range" "at"
        (.object [("gte", .text "1704067200"), ("lt", .text "1704067260")]) ∧
      instant.clause "at" = Clause.onField "term" "at" (.text "1704067230") ∧
      (range.start.truncateMillis.nanos ≤ t.truncateMillis.nanos ∧
        t.truncateMillis.nanos < range.stop.truncateMillis.nanos) ∧
      t.truncateMillis.nanos = instant.truncateMillis.nanos ∧
      holds document (ofJson (range.clause "at")) = .ok false ∧
      holds document (ofJson (instant.clause "at")) = .ok false :=
  ⟨by decide, rfl, by decide +kernel, by cbv, by cbv, by decide, by decide, by cbv, by cbv⟩

end Condition

/-! ## Order -/

/-- The rank of an instant in a direction. -/
def Direction.rank : Direction → Int → Int
  | .asc, t => t
  | .desc, t => -t

theorem Direction.rank_inj {direction : Direction} {s t : Int} :
    direction.rank s = direction.rank t ↔ s = t := by
  cases direction with
  | asc => exact Iff.rfl
  | desc => exact Int.neg_inj

theorem goesBefore_some {direction : Direction} {a b : Json} {s t : Int}
    (h : a.order? b = some (compare s t)) :
    MemoryStore.goesBefore (direction = .desc) (some a) (some b) =
      decide (direction.rank s < direction.rank t) := by
  rw [Bool.eq_iff_iff, decide_eq_true_iff]
  cases direction with
  | asc => simpa [MemoryStore.goesBefore, h, Direction.rank] using Int.compare_eq_lt
  | desc => simpa [MemoryStore.goesBefore, h, Direction.rank] using Int.compare_eq_gt

theorem goesBefore_eq {timeField : String} {direction : Direction} {a b : Members} {s t : Moment}
    (hat : Document.Timed timeField a) (hbt : Document.Timed timeField b)
    (ha : Document.time? timeField a = some s) (hb : Document.time? timeField b = some t) :
    MemoryStore.goesBefore (direction = .desc) (Document.lookup a timeField)
        (Document.lookup b timeField) =
      decide (direction.rank (Document.tick timeField a) <
        direction.rank (Document.tick timeField b)) := by
  rw [Document.tick_eq ha, Document.tick_eq hb]
  rcases hat with hat | ⟨x, s', hat, hs⟩
  · rw [Document.time?, hat] at ha
    cases ha
  rcases hbt with hbt | ⟨y, t', hbt, ht⟩
  · rw [Document.time?, hbt] at hb
    cases hb
  rw [Document.time?_text hat] at ha
  rw [Document.time?_text hbt] at hb
  rw [hat, hbt]
  exact goesBefore_some (Json.order?_text ha hb)

/-! ## Selection -/

/-- The documents in a range that meet a read's filter, if it has one. -/
def selected (timeField : String) (range : TimeRange) (filter : Option Json)
    (documents : List Members) : List Members :=
  documents.filter fun document =>
    (Document.time? timeField document).any range.covers &&
      filter.toList.all (Condition.met · document)

theorem mem_selected {timeField : String} {range : TimeRange} {filter : Option Json}
    {documents : List Members} {document : Members} :
    document ∈ selected timeField range filter documents ↔
      document ∈ documents ∧ (∃ m, Document.time? timeField document = some m ∧
        range.covers m = true) ∧ filter.toList.all (Condition.met · document) = true := by
  simp only [selected, List.mem_filter, Bool.and_eq_true, Option.any_eq_true]

end Sluice
