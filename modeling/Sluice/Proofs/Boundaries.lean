import Sluice.Proofs.Periods

/-!
Boundaries of windows. They lie one width apart in the raster of the width and its phase, the first
around the start of the range and the last around its end, so that the windows part the range.
-/
namespace Sluice

/-- The moments of a range, to the nanosecond. -/
def TimeRange.spans (range : TimeRange) (m : Moment) : Prop :=
  range.start.nanos ≤ m.nanos ∧ m.nanos < range.stop.nanos

/-- Flooring stays within 64 bits at each step. -/
structure Moment.FloorFits (millis width offset : Int) : Prop where
  shifted : Word.FitsSigned (millis - offset)
  floored : Word.FitsSigned ((millis - offset) / width * width)
  start : Word.FitsSigned ((millis - offset) / width * width + offset)

theorem Moment.floorMillis?_of_fits {millis width offset : Int} (hwidth : 0 < width)
    (h : FloorFits millis width offset) :
    floorMillis? millis width offset = some (offset + (millis - offset) / width * width) := by
  simp only [floorMillis?, Word.wrapSigned_of_fits h.shifted, Word.wrapSigned_of_fits h.floored,
    Word.wrapSigned_of_fits h.start]
  rw [if_neg (by omega), Int.add_comm]

/-- Ranges that part a range, in its order. -/
structure TimeRange.Parts (range : TimeRange) (parts : List TimeRange) : Prop where
  nonempty : ∀ part ∈ parts, part.isEmpty = false
  disjoint : parts.Pairwise fun part later => ∀ m, part.spans m → ¬ later.spans m
  contiguous : parts.IsChain fun part next => part.stop = next.start
  covering : ∀ m, range.spans m ↔ ∃ part ∈ parts, part.spans m

namespace Windows

variable {every : Interval} {phase : Option Phase} {range : TimeRange} {boundary stop : Moment}
  {rest boundaries : List Moment}

/-! ## Ladders -/

namespace Ladder

theorem ascending (h : Ladder every stop boundary rest) :
    (boundary :: rest).Pairwise (·.nanos < ·.nanos) := by
  induction h with
  | last => exact List.pairwise_singleton _ _
  | rung hstop hadvance hup hrest ih =>
      rw [List.pairwise_cons] at ih
      refine List.pairwise_cons.mpr ⟨fun m hm => ?_, List.pairwise_cons.mpr ih⟩
      rcases List.mem_cons.mp hm with rfl | hm
      · exact hup
      · exact Int.lt_trans hup (ih.1 m hm)

/-- A ladder ends with the only boundary that is not before its stop. -/
theorem last_two (h : Ladder every stop boundary rest) (hstop : boundary.nanos < stop.nanos) :
    ∃ front before last, boundary :: rest = front ++ [before, last] ∧
      before.nanos < stop.nanos ∧ stop.nanos ≤ last.nanos := by
  induction h with
  | last hpast => omega
  | @rung boundary next rest _ hadvance hup hrest ih =>
      by_cases hnext : next.nanos < stop.nanos
      · obtain ⟨front, before, last, heq, hends⟩ := ih hnext
        exact ⟨boundary :: front, before, last, by rw [heq]; rfl, hends⟩
      · cases hrest with
        | last => exact ⟨[], boundary, next, rfl, hstop, Int.not_lt.mp hnext⟩
        | rung hbefore => exact absurd hbefore hnext

/-- The windows of a ladder part what it spans of a range that starts before its second boundary. -/
theorem parts (h : Ladder every range.stop boundary rest) (hempty : range.isEmpty = false)
    (hstart : ∀ m ∈ rest, range.start.nanos < m.nanos) :
    TimeRange.Parts ⟨later boundary range.start, range.stop⟩
      (((boundary :: rest).zip rest).map (clip range)) := by
  induction h with
  | @last boundary hstop =>
      refine ⟨nofun, .nil, .nil, fun m => ⟨fun hm => ?_, nofun⟩⟩
      simp only [TimeRange.spans, later] at hm
      split at hm <;> omega
  | @rung boundary next rest hstop hadvance hup hrest ih =>
      obtain ⟨hnonempty, hdisjoint, hcontiguous, hcovering⟩ :=
        ih fun m hm => hstart m (List.mem_cons_of_mem _ hm)
      have hnext := hstart next List.mem_cons_self
      have hlater : later next range.start = next := if_pos hnext
      rw [hlater] at hcovering
      have hopen : range.start.nanos < range.stop.nanos := by
        simpa [TimeRange.isEmpty] using hempty
      rw [List.zip_cons_cons, List.map_cons]
      refine ⟨?nonempty, ?disjoint, ?contiguous, ?covering⟩
      case nonempty =>
        intro part hpart
        rcases List.mem_cons.mp hpart with rfl | hpart
        · simp only [TimeRange.isEmpty, clip, later, earlier, decide_eq_false_iff_not]
          split <;> split <;> omega
        · exact hnonempty part hpart
      case disjoint =>
        refine List.pairwise_cons.mpr ⟨fun part hpart m hm hm' => ?_, hdisjoint⟩
        have hbehind := ((hcovering m).mpr ⟨part, hpart, hm'⟩).1
        have hbefore := hm.2
        simp only [clip, earlier] at hbefore hbehind
        split at hbefore <;> omega
      case contiguous =>
        cases hrest with
        | last => exact List.isChain_singleton _
        | rung hbefore =>
            refine List.isChain_cons_cons.mpr ⟨?_, hcontiguous⟩
            simp only [clip, earlier, hlater]
            rw [if_neg (by omega)]
      case covering =>
        intro m
        have hsplit : TimeRange.spans ⟨later boundary range.start, range.stop⟩ m ↔
            (clip range (boundary, next)).spans m ∨ TimeRange.spans ⟨next, range.stop⟩ m := by
          simp only [TimeRange.spans, clip, later, earlier]
          split <;> split <;> omega
        rw [hsplit, hcovering m]
        simp only [List.mem_cons, exists_eq_or_imp]

end Ladder

/-- Boundaries around a range: the range starts in the first window, ends in the last one and is
parted by all of them. -/
structure Bound (range : TimeRange) (boundaries : List Moment) : Prop where
  ascending : boundaries.Pairwise (·.nanos < ·.nanos)
  start : ∃ first second rest, boundaries = first :: second :: rest ∧
    first.nanos ≤ range.start.nanos ∧ range.start.nanos < second.nanos
  stop : ∃ front before last, boundaries = front ++ [before, last] ∧
    before.nanos < range.stop.nanos ∧ range.stop.nanos ≤ last.nanos
  parts : range.Parts ((boundaries.zip boundaries.tail).map (clip range))

/-- A ladder whose first window holds the start of a range bounds the range. -/
theorem Ladder.bound {first second : Moment}
    (h : Ladder every range.stop first (second :: rest)) (hempty : range.isEmpty = false)
    (hfirst : first.nanos ≤ range.start.nanos) (hsecond : range.start.nanos < second.nanos) :
    Bound range (first :: second :: rest) := by
  have hopen : range.start.nanos < range.stop.nanos := by simpa [TimeRange.isEmpty] using hempty
  have hascending := h.ascending
  have hlater : later first range.start = range.start := by
    simp only [later]
    rw [if_neg (by omega)]
  have hstart : ∀ m ∈ second :: rest, range.start.nanos < m.nanos := by
    intro m hm
    rcases List.mem_cons.mp hm with rfl | hm
    · exact hsecond
    · have := (List.pairwise_cons.mp (List.pairwise_cons.mp hascending).2).1 m hm
      omega
  have hparts := h.parts hempty hstart
  rw [hlater] at hparts
  exact ⟨hascending, ⟨first, second, rest, rfl, hfirst, hsecond⟩, h.last_two (by omega), hparts⟩

/-! ## Rasters -/

/-- Boundaries of a width and a phase: one width apart, for a fixed width whole widths behind the
phase's offset, for months at starts of months whose numbers are multiples of the width. -/
def Raster (every : Interval) (phase : Option Phase) (boundaries : List Moment) : Prop :=
  match every with
  | .millis n => ∃ offset, shift? phase every = .ok (some offset) ∧
      (∀ b ∈ boundaries, ∃ steps : Int, b = .utc ((offset + steps * n) * Moment.nanosPerMilli)) ∧
      boundaries.IsChain fun b next => next.nanos = b.nanos + n * Moment.nanosPerMilli
  | .months count =>
      (∀ b ∈ boundaries, b.offset = 0 ∧ b.timeOfDay = 0 ∧ b.localDate.day = 1 ∧
        (count : Int) ∣ b.localDate.toMonths) ∧
      boundaries.IsChain fun b next : Moment =>
        next.localDate.toMonths = b.localDate.toMonths + (count : Int)

/-- Widths and phases that have a raster from the start of a range on, in 64-bit arithmetic. -/
def Regular (every : Interval) (phase : Option Phase) (start : Moment) : Prop :=
  match every with
  | .millis n => 0 < n ∧ ∀ offset, shift? phase every = .ok (some offset) →
      Moment.FloorFits start.toMillis n offset
  | .months count => 1 ≤ count ∧ phase = none

theorem Ladder.millis {n offset steps : Int}
    (h : Ladder (.millis n) stop (.utc ((offset + steps * n) * Moment.nanosPerMilli)) rest) :
    (∀ b ∈ rest, ∃ steps : Int, b = .utc ((offset + steps * n) * Moment.nanosPerMilli)) ∧
      (Moment.utc ((offset + steps * n) * Moment.nanosPerMilli) :: rest).IsChain
        fun b next => next.nanos = b.nanos + n * Moment.nanosPerMilli := by
  induction rest generalizing steps with
  | nil => exact ⟨nofun, List.isChain_singleton _⟩
  | cons next rest ih =>
      cases h with
      | rung hstop hadvance hup hrest =>
          obtain ⟨hnext, -⟩ := Moment.supported_of_later hadvance (by simp [Moment.utc])
          have hstep : next = .utc ((offset + (steps + 1) * n) * Moment.nanosPerMilli) := by
            rw [hnext]
            simp only [Moment.utc, Moment.mk.injEq, and_true]
            ring
          subst hstep
          obtain ⟨hsteps, hchain⟩ := ih hrest
          refine ⟨fun b hb => ?_, List.isChain_cons_cons.mpr ⟨?_, hchain⟩⟩
          · rcases List.mem_cons.mp hb with rfl | hb
            · exact ⟨steps + 1, rfl⟩
            · exact hsteps b hb
          · simp only [Moment.utc]
            ring

/-! ## Boundaries over a range -/

/-- The boundaries of a fixed width bound the range, in the raster of the width and the phase. -/
theorem bound_millis {n : Int} (hstart : 0 ≤ range.start.nanos) (hempty : range.isEmpty = false)
    (hregular : Regular (.millis n) phase range.start)
    (h : Windows.boundaries range (some (.millis n)) phase = .ok boundaries) :
    Bound range boundaries ∧ Raster (.millis n) phase boundaries := by
  obtain ⟨hn, hfits⟩ := hregular
  obtain ⟨offset, first, rest, hshift, hfloor, rfl, hladder⟩ := boundaries_ladder hempty h
  obtain ⟨start, hstarts, hmoment⟩ := floor_millis hfloor
  rw [Moment.floorMillis?_of_fits hn (hfits offset hshift), Option.some.injEq] at hstarts
  obtain ⟨rfl, -⟩ := Moment.supported_of_ofMillis hmoment
  subst hstarts
  obtain ⟨hsteps, hchain⟩ := hladder.millis
  have hopen : range.start.nanos < range.stop.nanos := by simpa [TimeRange.isEmpty] using hempty
  have hbelow := Int.ediv_mul_le (range.start.toMillis - offset) (Int.ne_of_gt hn)
  have habove := Int.lt_ediv_add_one_mul_self (range.start.toMillis - offset) hn
  have hmillis := Moment.toMillis_of_nonneg hstart
  rw [Int.add_mul, Int.one_mul] at habove
  simp only [Moment.nanosPerMilli] at hmillis
  have hfirst : (Moment.utc ((offset + (range.start.toMillis - offset) / n * n) *
      Moment.nanosPerMilli)).nanos ≤ range.start.nanos := by
    simp only [Moment.utc, Moment.nanosPerMilli]
    omega
  cases rest with
  | nil =>
      cases hladder with
      | last hpast => omega
  | cons second rest =>
      have hsecond : range.start.nanos < second.nanos := by
        rw [(List.isChain_cons_cons.mp hchain).1]
        simp only [Moment.utc, Moment.nanosPerMilli]
        omega
      refine ⟨hladder.bound hempty hfirst hsecond, offset, hshift, fun b hb => ?_, hchain⟩
      rcases List.mem_cons.mp hb with rfl | hb
      · exact ⟨_, rfl⟩
      · exact hsteps b hb

/-- The boundaries over a range from the epoch on are a ladder of shifted starts, from the one around
its start. -/
theorem boundaries_starts {count : Nat} {offset : Int} (hempty : range.isEmpty = false)
    (hshift : shift? phase (.months count) = .ok (some offset))
    (hsteady : Steady count (offset * Moment.nanosPerMilli)) (hstart : 0 ≤ range.start.nanos)
    (hstop : offset * Moment.nanosPerMilli < range.stop.nanos)
    (h : Windows.boundaries range (some (.months count)) phase = .ok boundaries) :
    0 < count ∧ Bound range boundaries ∧ ∃ months first rest, boundaries = first :: rest ∧
      Starts count (offset * Moment.nanosPerMilli) months first ∧
      Ladder (.months count) range.stop first rest := by
  obtain ⟨offset', first, rest, hshift', hfloor, rfl, hladder⟩ := boundaries_ladder hempty h
  cases hshift.symm.trans hshift'
  obtain ⟨months, hfirst, hfrom, hto⟩ := Starts.of_floor hstart hsteady hfloor
  refine ⟨(Interval.floor_months_eq_ok.mp hfloor).1, ?_, months, first, rest, rfl, hfirst, hladder⟩
  have hopen : range.start.nanos < range.stop.nanos := by simpa [TimeRange.isEmpty] using hempty
  cases rest with
  | nil =>
      cases hladder with
      | last hpast => omega
  | cons second rest =>
      exact hladder.bound hempty hfrom (hto second (hfirst.next hsteady hstop hladder))

/-- The boundaries of calendar months bound the range, each at the start of a month. -/
theorem bound_months {count : Nat} (hstart : 0 ≤ range.start.nanos)
    (hempty : range.isEmpty = false) (hregular : Regular (.months count) phase range.start)
    (h : Windows.boundaries range (some (.months count)) phase = .ok boundaries) :
    Bound range boundaries ∧ Raster (.months count) phase boundaries := by
  obtain ⟨-, rfl⟩ := hregular
  have hzero : 0 * Moment.nanosPerMilli = 0 := Int.zero_mul _
  have hsteady : Steady count (0 * Moment.nanosPerMilli) := ⟨by decide, .inl (by decide)⟩
  have hstop : 0 * Moment.nanosPerMilli < range.stop.nanos := by
    have hopen : range.start.nanos < range.stop.nanos := by simpa [TimeRange.isEmpty] using hempty
    omega
  obtain ⟨-, hbound, months, first, rest, rfl, hfirst, hladder⟩ :=
    boundaries_starts hempty rfl hsteady hstart hstop h
  have hstarts := hfirst.of_mem hsteady hstop hladder
  have hchain := hfirst.chain hsteady hstop hladder
  rw [hzero] at hstarts hchain
  refine ⟨hbound, fun b hb => ?_, hchain.imp fun b next hnext => ?_⟩
  · obtain ⟨months, hb⟩ := hstarts b hb
    rw [hb.eq_monthStart, Moment.localDate_monthStart hb.hasMonth, Calendar.toMonths_firstOfMonth]
    exact ⟨Moment.offset_monthStart months, Moment.timeOfDay_monthStart months, rfl, hb.dvd⟩
  · obtain ⟨months, hb, hnext⟩ := hnext
    rw [hb.eq_monthStart, hnext.eq_monthStart, Moment.toMonths_monthStart hb.hasMonth,
      Moment.toMonths_monthStart hnext.hasMonth]

/-- Windows part their range: from the epoch on, the boundaries of a regular width and phase bound
the range, in the raster of the width and the phase. -/
theorem boundaries_bound (hstart : 0 ≤ range.start.nanos) (hempty : range.isEmpty = false)
    (hregular : Regular every phase range.start)
    (h : Windows.boundaries range (some every) phase = .ok boundaries) :
    Bound range boundaries ∧ Raster every phase boundaries := by
  cases every with
  | millis n => exact bound_millis hstart hempty hregular h
  | months count => exact bound_months hstart hempty hregular h

/-- A phase beyond the width with a start between two milliseconds, and calendar months. -/
theorem boundaries_bound_phased :
    let seconds : TimeRange := ⟨.utc 10000000500, .utc 15500000000⟩
    let winter : TimeRange := ⟨.utc 1706659200000000001, .utc 1709251200000000000⟩
    let phase : Option Phase := some (.offset (.millis 5000))
    (∃ boundaries, Windows.boundaries seconds (some (.millis 2000)) phase = .ok boundaries ∧
      boundaries = [.utc 9000000000, .utc 11000000000, .utc 13000000000, .utc 15000000000,
        .utc 17000000000] ∧
      Bound seconds boundaries ∧ Raster (.millis 2000) phase boundaries) ∧
    ∃ boundaries, Windows.boundaries winter (some (.months 1)) none = .ok boundaries ∧
      boundaries = [.utc 1704067200000000000, .utc 1706745600000000000,
        .utc 1709251200000000000] ∧
      Bound winter boundaries ∧ Raster (.months 1) none boundaries := by
  intro seconds winter phase
  have hregular : Regular (.millis 2000) phase seconds.start := by
    refine ⟨by decide, fun offset hoffset => ?_⟩
    cases hoffset
    exact ⟨by decide, by decide, by decide⟩
  have hseconds : Windows.boundaries seconds (some (.millis 2000)) phase = .ok [.utc 9000000000,
      .utc 11000000000, .utc 13000000000, .utc 15000000000, .utc 17000000000] := by cbv
  have hwinter : Windows.boundaries winter (some (.months 1)) none = .ok [.utc 1704067200000000000,
      .utc 1706745600000000000, .utc 1709251200000000000] := by cbv
  exact ⟨⟨_, hseconds, rfl, boundaries_bound (by decide) (by decide) hregular hseconds⟩,
    _, hwinter, rfl, boundaries_bound (by decide) (by decide) ⟨by decide, rfl⟩ hwinter⟩

end Windows
end Sluice
