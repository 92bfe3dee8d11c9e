import Sluice.Proofs.Months
import Sluice.Proofs.Partition

/-!
Periods of months. Flooring moves a time back by the phase and the start it finds on again, while
going on keeps the place in the month. The two agree for phases that lead from the starts of all
periods to one place in a month.
-/
namespace Sluice

/-! ## Flooring -/

/-- The start of the period of months around a time, where the starts are shifted. -/
def Moment.periodStart (m : Moment) (count : Nat) (shift : Int) : Moment :=
  utc ((monthStart ((utc (m.nanos - shift)).localDate.toMonths / count * count)).nanos + shift)

/-- Flooring to shifted months stays within the supported years at each step. -/
structure Moment.MonthsFit (m : Moment) (count : Nat) (shift : Int) : Prop where
  shifted : (⟨m.nanos - shift, m.offset⟩ : Moment).inYears = true
  there : (utc (m.nanos - shift)).inYears = true
  start : (m.periodStart count shift).inYears = true

theorem Interval.floor_months_eq_ok {m first : Moment} {count : Nat} {offset : Int} :
    (Interval.months count).floor m offset = .ok first ↔ 0 < count ∧
      m.MonthsFit count (offset * Moment.nanosPerMilli) ∧
      first = m.periodStart count (offset * Moment.nanosPerMilli) := by
  have hback : ∀ months shift, (Moment.monthStart months).later shift =
      (Moment.utc ((Moment.monthStart months).nanos + shift)).checked := fun months shift => by
    rw [Moment.later, Moment.offset_monthStart, Moment.utc]
  constructor
  · intro h
    simp only [Interval.floor] at h
    split at h
    · cases h
    · obtain ⟨shifted, hshifted, h⟩ := bind_eq_ok.mp h
      obtain ⟨start, hstart, h⟩ := bind_eq_ok.mp h
      obtain ⟨hfits, rfl⟩ := Moment.checked_eq_ok.mp (mapError_eq_ok.mp hshifted)
      obtain ⟨hcount, hthere, rfl⟩ := Moment.floorMonths_eq_ok.mp (mapError_eq_ok.mp hstart)
      rw [hback] at h
      obtain ⟨hyears, rfl⟩ := Moment.checked_eq_ok.mp (mapError_eq_ok.mp h)
      exact ⟨Nat.pos_of_ne_zero hcount, ⟨hfits, hthere, hyears⟩, rfl⟩
  · rintro ⟨hcount, ⟨hfits, hthere, hyears⟩, rfl⟩
    have hsome : ¬(Interval.months count).isEmpty = true := by
      simp only [Interval.isEmpty, decide_eq_true_eq]
      omega
    simp only [Interval.floor, if_neg hsome]
    refine bind_eq_ok.mpr ⟨_, mapError_eq_ok.mpr (Moment.checked_eq_ok.mpr ⟨hfits, rfl⟩), ?_⟩
    refine bind_eq_ok.mpr ⟨_, mapError_eq_ok.mpr
      (Moment.floorMonths_eq_ok.mpr ⟨Nat.ne_of_gt hcount, hthere, rfl⟩), mapError_eq_ok.mpr ?_⟩
    rw [hback]
    exact Moment.checked_eq_ok.mpr ⟨hyears, rfl⟩

namespace Windows

open Moment

variable {count : Nat} {shift months months' place : Int} {b b' second stop : Moment}
  {rest : List Moment}

/-! ## Going on -/

/-- Past the epoch a ladder of months goes from each month to the one a width on, at one place in
the month: from a month without one, it would start over in the epoch's month and not advance. -/
theorem Ladder.placed_next {next : Moment} (hmonths : HasMonth months) (hplace : 0 ≤ place)
    (hshort : place < monthLength months)
    (hyears : (utc ((monthStart months).nanos + place)).inYears = true)
    (hstop : place < stop.nanos)
    (h : Ladder (.months count) stop (.utc ((monthStart months).nanos + place))
      (next :: rest)) :
    HasMonth (months + count) ∧
      next = .utc ((monthStart (months + count)).nanos + place) ∧
      next.inYears = true := by
  cases h with
  | rung _ hadvance hup hrest =>
      rw [Interval.advance, addMonths_placed hmonths hplace hshort hyears] at hadvance
      obtain ⟨hthere, rfl⟩ := checked_eq_ok.mp hadvance
      refine ⟨?_, rfl, hthere⟩
      by_contra hhas
      have hepoch : HasMonth (1970 * 12) := ⟨by decide, by decide⟩
      have hstart : (monthStart (1970 * 12)).nanos = 0 := by
        rw [monthStart_epoch]
        rfl
      rw [monthStart_of_not_hasMonth hhas, ← monthStart_epoch] at hup hthere hrest
      simp only [utc] at hup
      have hbefore : months < 1970 * 12 := by
        refine Int.not_le.mp fun hle => ?_
        have := monthStart_mono hepoch hmonths hle
        omega
      have hover : ¬ HasMonth (1970 * 12 + count) := by
        intro hhas'
        exact hhas ⟨by have := hmonths.lower; omega, by have := hhas'.upper; omega⟩
      have hlong : place < monthLength (1970 * 12) := by
        obtain ⟨-, hlongest⟩ := monthLength_bounds months
        have hjanuary : monthLength (1970 * 12) = 31 * nanosPerDay := by
          decide +kernel
        omega
      cases hrest with
      | last hpast =>
          simp only [utc] at hpast
          omega
      | rung _ hadvance' hup' _ =>
          rw [Interval.advance, addMonths_placed hepoch hplace hlong hthere,
            monthStart_of_not_hasMonth hover, ← monthStart_epoch] at hadvance'
          obtain ⟨-, rfl⟩ := checked_eq_ok.mp hadvance'
          omega

/-! ## Phases within a month -/

/-- Phases that lead from the starts of all periods to one place in a month: within the shortest
month, and for whole years within January and the shortest February. -/
structure Steady (count : Nat) (shift : Int) : Prop where
  nonneg : 0 ≤ shift
  short : shift < 28 * nanosPerDay ∨ 12 ∣ count ∧ shift < 59 * nanosPerDay

theorem monthLength_january (h : 12 ∣ months) : monthLength months = 31 * nanosPerDay := by
  have hmonth : (months % 12).toNat = 0 := by omega
  rw [monthLength, Calendar.monthDays, hmonth]
  rfl

/-- The month of a steady phase, counted from the start of a period, and the place in it. -/
theorem Steady.exists_place (h : Steady count shift) :
    ∃ month place : Int, 0 ≤ month ∧ 0 ≤ place ∧ place ≤ shift ∧
      ∀ months, (count : Int) ∣ months → HasMonth months →
        HasMonth (months + month) ∧ place < monthLength (months + month) ∧
        (monthStart (months + month)).nanos + place = (monthStart months).nanos + shift := by
  rcases h.short with hshort | ⟨hyears, hshort⟩
  · refine ⟨0, shift, Int.le_refl 0, h.nonneg, Int.le_refl _, fun months _ hhas => ?_⟩
    rw [Int.add_zero]
    exact ⟨hhas, Int.lt_of_lt_of_le hshort (monthLength_bounds months).1, rfl⟩
  · have hjanuary : ∀ months, (count : Int) ∣ months → 12 ∣ months := fun months hdvd =>
      Int.dvd_trans (Int.natCast_dvd_natCast.mpr hyears) hdvd
    by_cases hfirst : shift < 31 * nanosPerDay
    · refine ⟨0, shift, Int.le_refl 0, h.nonneg, Int.le_refl _, fun months hdvd hhas => ?_⟩
      rw [Int.add_zero, monthLength_january (hjanuary months hdvd)]
      exact ⟨hhas, hfirst, rfl⟩
    · refine ⟨1, shift - 31 * nanosPerDay, by decide, by omega, ?_, fun months hdvd hhas => ?_⟩
      · simp only [nanosPerDay, nanosPerSecond]
        omega
      · have hyear := hjanuary months hdvd
        have hnext : HasMonth (months + 1) :=
          ⟨by have := hhas.lower; omega, by have := hhas.upper; omega⟩
        have hfebruary := (monthLength_bounds (months + 1)).1
        rw [monthStart_succ hhas hnext, monthLength_january hyear]
        exact ⟨hnext, by omega, by omega⟩

/-! ## Shifted starts -/

/-- The start of a period of months, counted from year 0, shifted by a phase. -/
structure Starts (count : Nat) (shift months : Int) (b : Moment) : Prop where
  hasMonth : HasMonth months
  dvd : (count : Int) ∣ months
  eq : b = .utc ((monthStart months).nanos + shift)
  inYears : b.inYears = true

namespace Starts

theorem nanos_eq (h : Starts count shift months b) :
    b.nanos = (monthStart months).nanos + shift := by
  rw [h.eq, utc]

theorem unique (h : Starts count shift months b) (h' : Starts count shift months b') : b = b' := by
  rw [h.eq, h'.eq]

theorem eq_monthStart (h : Starts count 0 months b) : b = monthStart months := by
  rw [h.eq, Int.add_zero, utc_nanos_monthStart]

theorem lt_of_lt (h : Starts count shift months b) (h' : Starts count shift months' b')
    (hlt : months < months') : b.nanos < b'.nanos := by
  have := monthStart_lt h.hasMonth h'.hasMonth hlt
  rw [h.nanos_eq, h'.nanos_eq]
  omega

theorem floor_eq {offset : Int} (hcount : 0 < count)
    (h : Starts count (offset * nanosPerMilli) months b) :
    (Interval.months count).floor b offset = .ok b := by
  obtain ⟨hhas, hdvd, hb, hyears⟩ := h
  have hback : utc (b.nanos - offset * nanosPerMilli) = monthStart months := by
    rw [hb, utc, utc, Int.add_sub_cancel]
    exact utc_nanos_monthStart months
  have hutc : b.offset = 0 := by rw [hb, utc]
  have hperiod : b.periodStart count (offset * nanosPerMilli) = b := by
    rw [periodStart, hback, toMonths_monthStart hhas, Int.ediv_mul_cancel hdvd, ← hb]
  have hthere : (utc (b.nanos - offset * nanosPerMilli)).inYears = true := by
    rw [hback]
    exact inYears_monthStart months
  refine Interval.floor_months_eq_ok.mpr ⟨hcount, ⟨?_, hthere, ?_⟩, hperiod.symm⟩
  · rw [hutc]
    exact hthere
  · rw [hperiod]
    exact hyears

/-- From the epoch on a time is floored to the shifted start of the period that it lies in. -/
theorem of_floor {m first : Moment} {offset : Int} (hstart : 0 ≤ m.nanos)
    (hsteady : Steady count (offset * nanosPerMilli))
    (h : (Interval.months count).floor m offset = .ok first) :
    ∃ months, Starts count (offset * nanosPerMilli) months first ∧ first.nanos ≤ m.nanos ∧
      ∀ second, Starts count (offset * nanosPerMilli) (months + count) second →
        m.nanos < second.nanos := by
  obtain ⟨hcount, hfits, rfl⟩ := Interval.floor_months_eq_ok.mp h
  have hmonth := hasMonth_toMonths rfl hfits.there
  obtain ⟨hfrom, hto⟩ := monthStart_bounds rfl hmonth
  have hsixties : 1969 * 12 ≤ (utc (m.nanos - offset * nanosPerMilli)).localDate.toMonths := by
    refine le_toMonths rfl hmonth ⟨by decide, by decide⟩ ?_
    have hyear : (monthStart (1969 * 12)).nanos = -365 * nanosPerDay := by decide +kernel
    have hshift : offset * nanosPerMilli < 59 * nanosPerDay := by
      rcases hsteady.short with hshort | ⟨-, hshort⟩
      · exact Int.lt_trans hshort (by decide)
      · exact hshort
    rw [hyear]
    simp only [utc, nanosPerDay, nanosPerSecond] at hshift ⊢
    omega
  have hyears := hfits.start
  rw [periodStart] at hyears ⊢
  generalize (utc (m.nanos - offset * nanosPerMilli)).localDate.toMonths = now at *
  have hwide : (0 : Int) < count := Int.natCast_pos.mpr hcount
  have hbelow := Int.ediv_mul_le now (Int.ne_of_gt hwide)
  have habove := Int.lt_ediv_add_one_mul_self now hwide
  have hnonneg : 0 ≤ now / count * count :=
    Int.mul_nonneg (Int.ediv_nonneg (by omega) (by omega)) (by omega)
  rw [Int.add_mul, Int.one_mul] at habove
  have hperiod : HasMonth (now / count * count) := ⟨by omega, by have := hmonth.upper; omega⟩
  refine ⟨now / count * count, ⟨hperiod, Int.dvd_mul_left _ _, rfl, hyears⟩, ?_,
    fun second hsecond => ?_⟩
  · have hstart := Int.le_trans (monthStart_mono hperiod hmonth hbelow) hfrom
    simp only [utc] at hstart ⊢
    omega
  · have hnext := hsecond.hasMonth
    have hsucc : HasMonth (now + 1) := ⟨by omega, by have := hnext.upper; omega⟩
    have hstart := Int.lt_of_lt_of_le (hto hsucc) (monthStart_mono hsucc hnext habove)
    rw [hsecond.nanos_eq]
    simp only [utc] at hstart
    omega

theorem next (hsteady : Steady count shift) (hstop : shift < stop.nanos)
    (h : Starts count shift months b) (hladder : Ladder (.months count) stop b (second :: rest)) :
    Starts count shift (months + count) second := by
  obtain ⟨month, place, hmonth, hplace, hle, hplaced⟩ := hsteady.exists_place
  obtain ⟨hthere, hshort, hsame⟩ := hplaced months h.dvd h.hasMonth
  obtain ⟨hhas, hdvd, rfl, hyears⟩ := h
  rw [← hsame] at hladder hyears
  obtain ⟨hnext, rfl, hyears'⟩ := hladder.placed_next hthere hplace hshort hyears (by omega)
  have hhas' : HasMonth (months + count) :=
    ⟨by have := hhas.lower; omega, by have := hnext.upper; omega⟩
  have hdvd' : (count : Int) ∣ months + count := Int.dvd_add hdvd (Int.dvd_refl _)
  obtain ⟨-, -, hsame'⟩ := hplaced (months + count) hdvd' hhas'
  refine ⟨hhas', hdvd', ?_, hyears'⟩
  rw [← hsame', Int.add_right_comm]

theorem of_mem (hsteady : Steady count shift) (hstop : shift < stop.nanos)
    (h : Starts count shift months b) (hladder : Ladder (.months count) stop b rest) :
    ∀ m ∈ b :: rest, ∃ months, Starts count shift months m := by
  induction rest generalizing b months with
  | nil =>
      intro m hm
      rw [List.mem_singleton.mp hm]
      exact ⟨months, h⟩
  | cons second rest ih =>
      have hsecond := h.next hsteady hstop hladder
      intro m hm
      rcases List.mem_cons.mp hm with rfl | hm
      · exact ⟨months, h⟩
      · cases hladder with
        | rung _ _ _ hrest => exact ih hsecond hrest m hm

theorem chain (hsteady : Steady count shift) (hstop : shift < stop.nanos)
    (h : Starts count shift months b) (hladder : Ladder (.months count) stop b rest) :
    (b :: rest).IsChain fun b next => ∃ months, Starts count shift months b ∧
      Starts count shift (months + count) next := by
  induction rest generalizing b months with
  | nil => exact List.isChain_singleton _
  | cons second rest ih =>
      have hsecond := h.next hsteady hstop hladder
      cases hladder with
      | rung _ _ _ hrest =>
          exact List.isChain_cons_cons.mpr ⟨⟨months, h, hsecond⟩, ih hsecond hrest⟩

end Starts
end Windows
end Sluice
