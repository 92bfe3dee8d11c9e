import Sluice.Proofs.AnsweredCounts
import Sluice.Proofs.Boundaries

/-!
Widths and shifts of at most a year, between 1970 and 9000. A year ahead no arithmetic leaves the
supported years or 64 bits, so that there are boundaries and the store can read the windows.
-/
namespace Sluice

/-! ## Widths -/

namespace Interval

/-- The milliseconds of a leap year. -/
def longestYear : Int := 366 * 24 * 60 * 60 * 1000

/-- Intervals that texts give, of a year at most where they have a fixed width. -/
structure Yearly (every : Interval) : Prop where
  parsed : ∃ text, parse text = .ok every
  millis_le : ∀ n, every = .millis n → n ≤ longestYear

variable {n : Int}

theorem pos_of_parse {text : String} (h : parse text = .ok (.millis n)) : 0 < n := by
  simp only [parse] at h
  split at h
  · cases h
  · cases h
  · split at h
    · cases h
    · cases h
    · rename_i n' hne _
      cases h
      exact Int.natCast_pos.mpr (Nat.pos_of_ne_zero fun hzero => hne hzero)

theorem Yearly.pos (h : Yearly (.millis n)) : 0 < n := by
  obtain ⟨text, htext⟩ := h.parsed
  exact pos_of_parse htext

theorem Yearly.readable (h : Yearly (.millis n)) : Duration.Readable n := by
  have hpos := h.pos
  have hle := h.millis_le n rfl
  simp only [longestYear] at hle
  simp only [Duration.Readable, Word.unsignedLimit]
  omega

theorem Yearly.fixed (h : Yearly (.millis n)) : Fixed (.millis n) := by
  obtain ⟨-, hword⟩ := h.readable
  have hpos := h.pos
  refine ⟨n, rfl, hpos, ?_⟩
  simp only [Word.unsignedLimit] at hword
  simp only [Word.FitsSigned, Word.signedLimit]
  omega

end Interval

namespace Windows

variable {n offset : Int} {phase : Option Phase} {every : Option Interval} {range : TimeRange}

/-! ## Shifts -/

/-- A moment's distance from the start of its bucket is less than a width. -/
theorem shift_lt_of_moment {m : Moment} (hm : m.Supported) (hpos : 0 < n)
    (hle : n ≤ Interval.longestYear)
    (h : (Phase.moment m).offsetMillis (.millis n) = .ok (some offset)) :
    0 ≤ offset ∧ offset < n := by
  simp only [Phase.offsetMillis] at h
  split at h
  · rename_i start hfloor
    cases h
    obtain ⟨millis, hmillis, hstart⟩ := floor_millis hfloor
    obtain ⟨rfl, -⟩ := Moment.supported_of_ofMillis hstart
    have hbelow := Int.ediv_mul_le m.toMillis (Int.ne_of_gt hpos)
    have habove := Int.lt_ediv_add_one_mul_self m.toMillis hpos
    rw [Int.add_mul, Int.one_mul] at habove
    have hfits : Moment.FloorFits m.toMillis n 0 := by
      have hbounds := hm.bounds
      have hoffset := hm.offset_lt
      have habs : m.toMillis.natAbs = m.nanos.natAbs / 1000000 :=
        Int.natAbs_tdiv m.nanos Moment.nanosPerMilli
      simp only [Moment.leastNanos, Moment.greatestNanos, Moment.nanosPerMinute,
        Moment.nanosPerSecond] at hbounds
      simp only [Interval.longestYear] at hle
      refine ⟨?_, ?_, ?_⟩ <;>
        simp only [Int.sub_zero, Int.add_zero, Word.FitsSigned, Word.signedLimit] <;> omega
    rw [Moment.floorMillis?_of_fits hpos hfits, Option.some.injEq, Int.sub_zero, Int.zero_add]
      at hmillis
    have hexact : (Moment.utc (millis * Moment.nanosPerMilli)).toMillis = millis :=
      Int.mul_tdiv_cancel millis (by decide)
    rw [hexact, ← hmillis]
    omega
  · cases h
  · cases h

/-- Phases that a store can read: shifts of a year at most, and supported moments. -/
structure Shifts (phase : Option Phase) : Prop where
  offset : ∀ shift, phase = some (.offset shift) → shift.Yearly
  moment : ∀ m, phase = some (.moment m) → m.Supported

theorem Shifts.readable (h : Shifts phase) (hn : Interval.Yearly (.millis n))
    (hshift : shift? phase (.millis n) = .ok (some offset)) : Duration.Readable offset := by
  match phase with
  | none =>
      cases hshift
      decide
  | some (.offset (.millis shift)) =>
      cases hshift
      exact (h.offset _ rfl).readable
  | some (.offset (.months count)) => cases hshift
  | some (.moment m) =>
      obtain ⟨hlo, hhi⟩ := shift_lt_of_moment (h.moment m rfl) hn.pos (hn.millis_le n rfl) hshift
      obtain ⟨-, hword⟩ := hn.readable
      exact ⟨hlo, by omega⟩

/-! ## Boundaries -/

/-- Where the years up to 9000 end, in nanoseconds. -/
def horizon : Int :=
  (Calendar.daysBeforeYear 9001 - Calendar.epochDay) * Moment.nanosPerDay

/-- From a year before 1970 on, boundaries behind one another lead past the end of a range. -/
theorem exists_boundariesAfter {stop boundary : Moment} (hpos : 0 < n)
    (hle : n ≤ Interval.longestYear) (hstop : stop.nanos < horizon) (hutc : boundary.offset = 0)
    (hfrom : -Interval.longestYear * Moment.nanosPerMilli ≤ boundary.nanos) :
    ∃ rest, boundariesAfter (.millis n) stop boundary = .ok rest := by
  have hahead : ∀ m : Moment, m.nanos < stop.nanos → m.offset = 0 →
      -Interval.longestYear * Moment.nanosPerMilli ≤ m.nanos →
      Interval.advance (.millis n) m = .ok ⟨m.nanos + n * Moment.nanosPerMilli, m.offset⟩ := by
    intro m hm hoffset hlo
    have hyears : (⟨m.nanos + n * Moment.nanosPerMilli, m.offset⟩ : Moment).inYears = true := by
      simp only [horizon, Calendar.daysBeforeYear, Calendar.epochDay, Moment.nanosPerDay,
        Moment.nanosPerSecond] at hstop
      simp only [Interval.longestYear, Moment.nanosPerMilli] at hle hlo ⊢
      refine Moment.inYears_of_utc hoffset ?_ ?_ <;>
        simp only [Moment.leastNanos, Moment.greatestNanos, Moment.nanosPerSecond] <;> omega
    rw [Interval.advance, Moment.later, Moment.checked, if_pos hyears]
  fun_induction boundariesAfter (.millis n) stop boundary with
  | case1 boundary hbefore cause hadvance =>
      rw [hahead boundary hbefore hutc hfrom] at hadvance
      cases hadvance
  | case2 boundary hbefore next hadvance hup ih =>
      rw [hahead boundary hbefore hutc hfrom] at hadvance
      cases hadvance
      obtain ⟨rest, hrest⟩ := ih hutc (Int.le_of_lt (Int.lt_of_le_of_lt hfrom hup))
      rw [hrest]
      exact ⟨_, rfl⟩
  | case3 boundary hbefore next hadvance hup =>
      rw [hahead boundary hbefore hutc hfrom] at hadvance
      cases hadvance
      simp only [Moment.nanosPerMilli] at hup
      omega
  | case4 boundary hpast => exact ⟨[], rfl⟩

/-- The bucket around a time from 1970 on starts in a year before 1970 or later. -/
theorem exists_floor {m : Moment} (hm : m.Supported) (hstart : 0 ≤ m.nanos)
    (hstop : m.nanos < horizon) (hn : Interval.Yearly (.millis n)) (offset : Int) :
    ∃ first, (Interval.millis n).floor m offset = .ok first ∧ first.offset = 0 ∧
      -Interval.longestYear * Moment.nanosPerMilli ≤ first.nanos := by
  have hpos := hn.pos
  have hle := hn.millis_le n rfl
  obtain ⟨_, hwidth, -, hword⟩ := hn.fixed
  cases hwidth
  obtain ⟨start, hfloor, hbelow, habove⟩ := @Moment.floorMillis?_eq_some m.toMillis n offset
    (Int.tdiv_nonneg hstart (by decide)) hm.fitsSigned_toMillis hpos hword
  rw [Moment.toMillis_of_nonneg hstart] at hbelow habove
  simp only [horizon, Calendar.daysBeforeYear, Calendar.epochDay, Moment.nanosPerDay,
    Moment.nanosPerSecond] at hstop
  simp only [Interval.longestYear, Moment.nanosPerMilli] at hle hbelow habove
  have hyears : (Moment.utc (start * Moment.nanosPerMilli)).inYears = true := by
    refine Moment.inYears_of_utc rfl ?_ ?_ <;>
      simp only [Moment.utc, Moment.leastNanos, Moment.greatestNanos, Moment.nanosPerSecond,
        Moment.nanosPerMilli] <;> omega
  refine ⟨.utc (start * Moment.nanosPerMilli), ?_, rfl, ?_⟩
  · have hsome : Interval.isEmpty (.millis n) = false := by simp [Interval.isEmpty, hpos]
    simp only [Interval.floor, hsome, hfloor, Moment.ofMillis, hyears]
    rfl
  · simp only [Moment.utc, Moment.nanosPerMilli, Interval.longestYear]
    omega

/-- There are boundaries for each width and shift of a year at most, between 1970 and 9000. -/
theorem exists_boundaries (hrange : range.Recent) (hstop : range.stop.nanos < horizon)
    (hevery : ∀ width ∈ every, width.Yearly ∧
      ∃ n offset, width = .millis n ∧ shift? phase width = .ok (some offset)) :
    ∃ boundaries, Windows.boundaries range every phase = .ok boundaries := by
  cases hempty : range.isEmpty with
  | true => exact ⟨[], by simp only [Windows.boundaries, hempty, ↓reduceIte]⟩
  | false =>
      cases every with
      | none => exact ⟨[range.start, range.stop], by simp [Windows.boundaries, hempty]⟩
      | some width =>
          obtain ⟨hyearly, n, offset, rfl, hshift⟩ := hevery width rfl
          have hopen : range.start.nanos < range.stop.nanos := by
            simpa [TimeRange.isEmpty] using hempty
          obtain ⟨first, hfirst, hutc, hfrom⟩ := exists_floor hrange.start hrange.start_nonneg
            (Int.lt_trans hopen hstop) hyearly offset
          obtain ⟨rest, hrest⟩ :=
            exists_boundariesAfter hyearly.pos (hyearly.millis_le n rfl) hstop hutc hfrom
          rw [boundaries_of_shift hempty hshift, hfirst]
          exact ⟨first :: rest, bind_eq_ok.mpr ⟨first, rfl, bind_eq_ok.mpr ⟨rest, hrest, rfl⟩⟩⟩

end Windows
end Sluice
