import Sluice.Proofs.Months

/-!
Periods of months bracket every time: flooring goes back to the start of the period that a time lies
in, going on by the period leads to the start of the next one, and all times between the two are
floored alike.
-/
namespace Sluice.Moment

open Calendar

variable {m : Moment} {months : Int} {count : Nat}

/-- The start of a period of months, as the calendar has it: midnight UTC on the first day of a
month that is whole periods away from year 0. -/
structure StartsPeriod (count : Nat) (m : Moment) : Prop where
  utc : m.offset = 0
  midnight : m.timeOfDay = 0
  firstDay : m.localDate.day = 1
  dvd : (count : Int) ∣ m.localDate.toMonths

theorem startsPeriod_monthStart (h : HasMonth months) (hdvd : (count : Int) ∣ months) :
    (monthStart months).StartsPeriod count := by
  refine ⟨offset_monthStart months, timeOfDay_monthStart months, ?_, ?_⟩
  · rw [localDate_monthStart h]
    rfl
  · rw [toMonths_monthStart h]
    exact hdvd

theorem addMonths_monthStart (h : HasMonth months) (count : Nat) :
    (monthStart months).addMonths count = .ok (monthStart (months + count)) := by
  have hlong : 0 < monthLength months := by
    have hshortest := (monthLength_bounds months).1
    simp only [nanosPerDay, nanosPerSecond] at hshortest
    omega
  have hhere : utc ((monthStart months).nanos + 0) = monthStart months := by
    rw [Int.add_zero, utc_nanos_monthStart]
  have hthere : utc ((monthStart (months + count)).nanos + 0) = monthStart (months + count) := by
    rw [Int.add_zero, utc_nanos_monthStart]
  have hplaced := addMonths_placed h (Int.le_refl 0) hlong
    (by rw [hhere]; exact inYears_monthStart months) count
  rw [hhere, hthere] at hplaced
  rw [hplaced]
  exact checked_eq_ok.mpr ⟨inYears_monthStart _, rfl⟩

theorem floorMonths_of_between (hcount : 0 < count) (hdvd : (count : Int) ∣ months)
    (h : HasMonth months) (hnext : HasMonth (months + count))
    (hlo : (monthStart months).nanos ≤ m.nanos)
    (hhi : m.nanos < (monthStart (months + count)).nanos) :
    m.floorMonths count = .ok (monthStart months) := by
  have hyears : (utc m.nanos).inYears = true := by
    obtain ⟨hfirst, -⟩ := bounds_of_inYears (inYears_monthStart months) (offset_monthStart months)
    obtain ⟨-, hlast⟩ :=
      bounds_of_inYears (inYears_monthStart (months + count)) (offset_monthStart _)
    exact inYears_of_utc rfl (Int.le_trans hfirst hlo) (Int.le_trans (Int.le_of_lt hhi) hlast)
  have hmonth := hasMonth_toMonths rfl hyears
  obtain ⟨hstart, -⟩ := monthStart_bounds rfl hmonth
  have hfrom : months ≤ (utc m.nanos).localDate.toMonths := le_toMonths rfl hmonth h hlo
  have hto : (utc m.nanos).localDate.toMonths < months + count := by
    refine Int.not_le.mp fun hle => ?_
    have hlate := Int.le_trans (monthStart_mono hnext hmonth hle) hstart
    simp only [utc] at hlate
    omega
  have hwide : (0 : Int) < count := Int.natCast_pos.mpr hcount
  obtain ⟨periods, rfl⟩ := hdvd
  have hperiod : (utc m.nanos).localDate.toMonths / count = periods := by
    refine (Int.ediv_eq_iff_of_pos hwide).mpr ⟨?_, ?_⟩
    · rwa [Int.mul_comm]
    · rwa [Int.mul_comm]
  refine floorMonths_eq_ok.mpr ⟨Nat.ne_of_gt hcount, hyears, ?_⟩
  rw [hperiod, Int.mul_comm]

/-- A time lies between the start of the period of months around it and the start of the next
period, and each of the two is had by flooring and going on. -/
theorem floorMonths_brackets (hyear : 0 ≤ (utc m.nanos).localDate.year) (hcount : 0 < count)
    (hend : ((utc m.nanos).localDate.toMonths / count + 1) * count < 10000 * 12) :
    ∃ start stop, m.floorMonths count = .ok start ∧ start.addMonths count = .ok stop ∧
      start.StartsPeriod count ∧ stop.StartsPeriod count ∧
      stop.localDate.toMonths = start.localDate.toMonths + count ∧
      start.nanos ≤ m.nanos ∧ m.nanos < stop.nanos ∧
      start.floorMonths count = .ok start ∧
      ∀ m' : Moment, start.nanos ≤ m'.nanos → m'.nanos < stop.nanos →
        m'.floorMonths count = .ok start := by
  obtain ⟨now, hnow⟩ : ∃ now, (utc m.nanos).localDate.toMonths = now := ⟨_, rfl⟩
  have hnonneg : 0 ≤ now := by
    have hvalid : (utc m.nanos).localDate.isValid = true := isValid_ofDays _
    simp only [Date.isValid, Bool.and_eq_true, decide_eq_true_eq] at hvalid
    simp only [Date.toMonths] at hnow
    omega
  rw [hnow] at hend
  have hwide : (0 : Int) < count := Int.natCast_pos.mpr hcount
  have hbelow := Int.ediv_mul_le now (Int.ne_of_gt hwide)
  have habove := Int.lt_ediv_add_one_mul_self now hwide
  have hfirst : 0 ≤ now / count * count :=
    Int.mul_nonneg (Int.ediv_nonneg hnonneg (Int.le_of_lt hwide)) (Int.le_of_lt hwide)
  have hdvd : (count : Int) ∣ now / count * count := Int.dvd_mul_left _ _
  rw [Int.add_mul, Int.one_mul] at habove hend
  generalize now / count * count = first at *
  have hmonth : HasMonth now := ⟨by omega, by omega⟩
  have hthis : HasMonth first := ⟨by omega, by omega⟩
  have hnext : HasMonth (first + count) := ⟨by omega, by omega⟩
  have hsucc : HasMonth (now + 1) := ⟨by omega, by omega⟩
  obtain ⟨hfrom, hto⟩ := monthStart_bounds rfl (hnow ▸ hmonth)
  rw [hnow] at hfrom hto
  have hlo : (monthStart first).nanos ≤ m.nanos :=
    Int.le_trans (monthStart_mono hthis hmonth hbelow) hfrom
  have hhi : m.nanos < (monthStart (first + count)).nanos :=
    Int.lt_of_lt_of_le (hto hsucc) (monthStart_mono hsucc hnext habove)
  have hfloor : ∀ m' : Moment, (monthStart first).nanos ≤ m'.nanos →
      m'.nanos < (monthStart (first + count)).nanos →
      m'.floorMonths count = .ok (monthStart first) :=
    fun _ => floorMonths_of_between hcount hdvd hthis hnext
  refine ⟨monthStart first, monthStart (first + count), hfloor m hlo hhi,
    addMonths_monthStart hthis count, startsPeriod_monthStart hthis hdvd,
    startsPeriod_monthStart hnext (Int.dvd_add hdvd (Int.dvd_refl _)), ?_, hlo, hhi,
    hfloor _ (Int.le_refl _) (Int.lt_of_le_of_lt hlo hhi), hfloor⟩
  rw [toMonths_monthStart hthis, toMonths_monthStart hnext]

/-- Half an hour into March 2024 in UTC, which is still 29 February an hour west of it. -/
theorem floorMonths_brackets_leap :
    (⟨1709253000000000000, -60⟩ : Moment).localDate = ⟨2024, 2, 29⟩ ∧
      (0 ≤ (utc 1709253000000000000).localDate.year ∧ 0 < 9 ∧
        ((utc 1709253000000000000).localDate.toMonths / (9 : Nat) + 1) * (9 : Nat) < 10000 * 12) ∧
      ∃ start stop, (⟨1709253000000000000, -60⟩ : Moment).floorMonths 9 = .ok start ∧
        start.addMonths 9 = .ok stop ∧ start.StartsPeriod 9 ∧ stop.StartsPeriod 9 ∧
        stop.localDate.toMonths = start.localDate.toMonths + (9 : Nat) ∧
        start.nanos ≤ 1709253000000000000 ∧ 1709253000000000000 < stop.nanos ∧
        start.floorMonths 9 = .ok start ∧
        ∀ m' : Moment, start.nanos ≤ m'.nanos → m'.nanos < stop.nanos →
          m'.floorMonths 9 = .ok start :=
  have hyear : 0 ≤ (utc 1709253000000000000).localDate.year := by decide +kernel
  have hend : ((utc 1709253000000000000).localDate.toMonths / (9 : Nat) + 1) * (9 : Nat) <
      10000 * 12 := by decide +kernel
  ⟨by decide +kernel, ⟨hyear, by decide, hend⟩,
    @floorMonths_brackets ⟨1709253000000000000, -60⟩ 9 hyear (by decide) hend⟩

end Sluice.Moment
