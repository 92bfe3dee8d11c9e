import Sluice.Proofs.Calendar
import Sluice.Proofs.Outcomes
import Sluice.Time.Moment

/-!
Months of moments. In the supported years every month has a start, in the order of the months, and
the month of a moment is the one that starts last at or before it.
-/
namespace Sluice.Moment

open Calendar

/-- A month, counted from year 0, of a supported year. -/
structure HasMonth (months : Int) : Prop where
  lower : -9999 * 12 ≤ months
  upper : months ≤ 9999 * 12 + 11

variable {months : Int} {m : Moment}

theorem inYears_of_utc (hutc : m.offset = 0) (hlo : leastNanos ≤ m.nanos)
    (hhi : m.nanos ≤ greatestNanos) : m.inYears = true := by
  simp [inYears, localNanos, hutc, hlo, hhi]

theorem bounds_of_inYears (h : m.inYears = true) (hutc : m.offset = 0) :
    leastNanos ≤ m.nanos ∧ m.nanos ≤ greatestNanos := by
  simp only [inYears, localNanos, hutc, Int.zero_mul, Int.add_zero, Bool.and_eq_true,
    decide_eq_true_eq] at h
  exact h

/-! ## Starts of months -/

theorem monthStart_of_hasMonth (h : HasMonth months) :
    monthStart months = utc (((Date.firstOfMonth months).toDays - epochDay) * nanosPerDay) := by
  obtain ⟨hlo, hhi⟩ := h
  simp only [monthStart]
  rw [if_pos]
  simp only [Date.firstOfMonth]
  omega

/-- Without a supported year a month is taken to start with the epoch. -/
theorem monthStart_of_not_hasMonth (h : ¬ HasMonth months) : monthStart months = epoch := by
  simp only [monthStart]
  rw [if_neg]
  intro hyear
  simp only [Date.firstOfMonth] at hyear
  exact h ⟨by omega, by omega⟩

theorem monthStart_epoch : monthStart (1970 * 12) = epoch := by decide +kernel

theorem localDate_monthStart (h : HasMonth months) :
    (monthStart months).localDate = Date.firstOfMonth months := by
  rw [monthStart_of_hasMonth h, localDate, localNanos]
  have hday : (((Date.firstOfMonth months).toDays - epochDay) * nanosPerDay + 0 * nanosPerMinute) /
      nanosPerDay + epochDay = (Date.firstOfMonth months).toDays := by
    rw [Int.zero_mul, Int.add_zero, Int.mul_ediv_cancel _ (by decide)]
    omega
  simp only [utc]
  rw [hday, ofDays_toDays (isValid_firstOfMonth months)]

theorem toMonths_monthStart (h : HasMonth months) :
    (monthStart months).localDate.toMonths = months := by
  rw [localDate_monthStart h, toMonths_firstOfMonth]

theorem offset_monthStart (months : Int) : (monthStart months).offset = 0 := by
  simp only [monthStart]
  split <;> rfl

theorem utc_nanos_monthStart (months : Int) :
    utc (monthStart months).nanos = monthStart months := by
  rw [utc, ← offset_monthStart months]

theorem timeOfDay_monthStart (months : Int) : (monthStart months).timeOfDay = 0 := by
  by_cases h : HasMonth months
  · rw [monthStart_of_hasMonth h, timeOfDay, localNanos]
    simp only [utc, Int.zero_mul, Int.add_zero, Int.mul_emod_left]
  · rw [monthStart_of_not_hasMonth h]
    rfl

theorem inYears_monthStart (months : Int) : (monthStart months).inYears = true := by
  by_cases h : HasMonth months
  · obtain ⟨hlo, hhi⟩ := toDays_bounds (isValid_firstOfMonth months)
    have hfrom := @daysBeforeYear_mono (-9999) (Date.firstOfMonth months).year
      (by simp only [Date.firstOfMonth]; have := h.lower; omega)
    have hto := @daysBeforeYear_mono ((Date.firstOfMonth months).year + 1) 10000
      (by simp only [Date.firstOfMonth]; have := h.upper; omega)
    rw [monthStart_of_hasMonth h]
    generalize daysBeforeYear (Date.firstOfMonth months).year = first at *
    generalize daysBeforeYear ((Date.firstOfMonth months).year + 1) = behind at *
    simp only [daysBeforeYear] at hfrom hto
    simp only [inYears, Bool.and_eq_true, decide_eq_true_eq]
    simp only [localNanos, utc, leastNanos, greatestNanos, epochDay, nanosPerDay, nanosPerSecond]
    omega
  · rw [monthStart_of_not_hasMonth h]
    decide

theorem monthStart_lt {a b : Int} (ha : HasMonth a) (hb : HasMonth b) (h : a < b) :
    (monthStart a).nanos < (monthStart b).nanos := by
  have hdays := toDays_firstOfMonth_lt h
  rw [monthStart_of_hasMonth ha, monthStart_of_hasMonth hb]
  simp only [utc, nanosPerDay, nanosPerSecond]
  omega

theorem monthStart_mono {a b : Int} (ha : HasMonth a) (hb : HasMonth b) (h : a ≤ b) :
    (monthStart a).nanos ≤ (monthStart b).nanos := by
  rcases Int.lt_or_eq_of_le h with hlt | rfl
  · exact Int.le_of_lt (monthStart_lt ha hb hlt)
  · exact Int.le_refl _

/-- How long a month lasts, in nanoseconds. -/
def monthLength (months : Int) : Int := monthDays months * nanosPerDay

theorem monthLength_bounds (months : Int) :
    28 * nanosPerDay ≤ monthLength months ∧ monthLength months ≤ 31 * nanosPerDay := by
  obtain ⟨hlo, hhi⟩ := monthDays_bounds months
  simp only [monthLength, nanosPerDay, nanosPerSecond]
  omega

theorem monthStart_succ (h : HasMonth months) (hnext : HasMonth (months + 1)) :
    (monthStart (months + 1)).nanos = (monthStart months).nanos + monthLength months := by
  rw [monthStart_of_hasMonth h, monthStart_of_hasMonth hnext, toDays_firstOfMonth_succ]
  simp only [utc, monthLength, nanosPerDay, nanosPerSecond]
  omega

/-! ## The month of a moment -/

theorem hasMonth_toMonths (hutc : m.offset = 0) (h : m.inYears = true) :
    HasMonth m.localDate.toMonths := by
  replace h := bounds_of_inYears h hutc
  simp only [leastNanos, greatestNanos, nanosPerSecond] at h
  have hvalid := isValid_ofDays (m.nanos / nanosPerDay + epochDay)
  have hdays := toDays_ofDays (m.nanos / nanosPerDay + epochDay)
  have hdate : m.localDate = .ofDays (m.nanos / nanosPerDay + epochDay) := by
    rw [localDate, localNanos, hutc, Int.zero_mul, Int.add_zero]
  rw [← hdate] at hvalid hdays
  have hyear := yearOfDay_toDays hvalid
  rw [hdays] at hyear
  have hfrom : -9999 ≤ m.localDate.year := by
    rw [← hyear, le_yearOfDay_iff]
    simp only [daysBeforeYear, epochDay, nanosPerDay, nanosPerSecond]
    omega
  have hto : m.localDate.year ≤ 9999 := by
    rw [← hyear, yearOfDay_le_iff]
    simp only [daysBeforeYear, epochDay, nanosPerDay, nanosPerSecond]
    omega
  simp only [Date.isValid, Bool.and_eq_true, decide_eq_true_eq] at hvalid
  constructor
  · simp only [Date.toMonths]
    omega
  · simp only [Date.toMonths]
    omega

theorem monthStart_bounds (hutc : m.offset = 0) (h : HasMonth m.localDate.toMonths) :
    (monthStart m.localDate.toMonths).nanos ≤ m.nanos ∧
      (HasMonth (m.localDate.toMonths + 1) →
        m.nanos < (monthStart (m.localDate.toMonths + 1)).nanos) := by
  have hlocal : m.localNanos = m.nanos := by rw [localNanos, hutc]; omega
  obtain ⟨hlo, hhi⟩ := toDays_between_firsts (isValid_ofDays (m.nanos / nanosPerDay + epochDay))
  rw [toDays_ofDays] at hlo hhi
  have hdate : m.localDate = .ofDays (m.nanos / nanosPerDay + epochDay) := by
    rw [localDate, hlocal]
  rw [← hdate] at hlo hhi
  refine ⟨?_, fun hnext => ?_⟩
  · rw [monthStart_of_hasMonth h]
    simp only [utc, nanosPerDay, nanosPerSecond] at hlo ⊢
    omega
  · rw [monthStart_of_hasMonth hnext]
    simp only [utc, nanosPerDay, nanosPerSecond] at hhi ⊢
    omega

theorem lt_monthStart_add (hutc : m.offset = 0) (h : HasMonth m.localDate.toMonths) :
    m.nanos < (monthStart m.localDate.toMonths).nanos + monthLength m.localDate.toMonths := by
  have hlocal : m.localNanos = m.nanos := by rw [localNanos, hutc]; omega
  obtain ⟨-, hhi⟩ := toDays_between_firsts (isValid_ofDays (m.nanos / nanosPerDay + epochDay))
  rw [toDays_ofDays, toDays_firstOfMonth_succ] at hhi
  have hdate : m.localDate = .ofDays (m.nanos / nanosPerDay + epochDay) := by
    rw [localDate, hlocal]
  rw [← hdate] at hhi
  rw [monthStart_of_hasMonth h]
  simp only [utc, monthLength, nanosPerDay, nanosPerSecond] at hhi ⊢
  omega

/-- The month of a time is the only one that the time lies in. -/
theorem toMonths_of_between (hutc : m.offset = 0) (h : HasMonth months)
    (hlo : (monthStart months).nanos ≤ m.nanos)
    (hhi : m.nanos < (monthStart months).nanos + monthLength months) :
    m.localDate.toMonths = months := by
  have hlocal : m.localNanos = m.nanos := by rw [localNanos, hutc]; omega
  obtain ⟨hfrom, hto⟩ := toDays_between_firsts (isValid_ofDays (m.nanos / nanosPerDay + epochDay))
  have hdate : m.localDate = .ofDays (m.nanos / nanosPerDay + epochDay) := by
    rw [localDate, hlocal]
  rw [toDays_ofDays, ← hdate] at hfrom hto
  have hnext := toDays_firstOfMonth_succ months
  rw [monthStart_of_hasMonth h] at hlo hhi
  simp only [utc, monthLength, nanosPerDay, nanosPerSecond] at hfrom hto hlo hhi
  rcases Int.lt_trichotomy m.localDate.toMonths months with hlt | heq | hgt
  · have hle : (Date.firstOfMonth (m.localDate.toMonths + 1)).toDays ≤
        (Date.firstOfMonth months).toDays := by
      rcases Int.lt_or_eq_of_le (show m.localDate.toMonths + 1 ≤ months from hlt) with hlt | heq
      · exact Int.le_of_lt (toDays_firstOfMonth_lt hlt)
      · exact Int.le_of_eq (by rw [heq])
    omega
  · exact heq
  · have hle : (Date.firstOfMonth (months + 1)).toDays ≤
        (Date.firstOfMonth m.localDate.toMonths).toDays := by
      rcases Int.lt_or_eq_of_le (show months + 1 ≤ m.localDate.toMonths from hgt) with hlt | heq
      · exact Int.le_of_lt (toDays_firstOfMonth_lt hlt)
      · exact Int.le_of_eq (by rw [heq])
    omega

theorem le_toMonths (hutc : m.offset = 0) (h : HasMonth m.localDate.toMonths)
    (hmonths : HasMonth months) (hle : (monthStart months).nanos ≤ m.nanos) :
    months ≤ m.localDate.toMonths := by
  refine Int.not_lt.mp fun hlt => ?_
  have hnext : HasMonth (m.localDate.toMonths + 1) :=
    ⟨by have := h.lower; omega, by have := hmonths.upper; omega⟩
  have hbefore := (monthStart_bounds hutc h).2 hnext
  have hlater := monthStart_mono hnext hmonths hlt
  omega

/-! ## Flooring and advancing -/

theorem checked_eq_ok {m' : Moment} : m.checked = .ok m' ↔ m.inYears = true ∧ m' = m := by
  rw [checked]
  split
  · rename_i hyears
    rw [Except.ok.injEq, and_iff_right hyears]
    exact eq_comm
  · rename_i hyears
    exact ⟨nofun, fun h => absurd h.1 hyears⟩

theorem checked_eq_error {cause : TimeError} (h : m.checked = .error cause) :
    cause = .outOfYears := by
  rw [checked] at h
  split at h
  · cases h
  · cases h
    rfl

/-- A time in UTC goes on by months at the same place in its month. -/
theorem addMonths_eq (hutc : m.offset = 0) (hyears : m.inYears = true) (count : Nat) :
    m.addMonths count = (monthStart (m.localDate.toMonths + count)).later
      (m.nanos - (monthStart m.localDate.toMonths).nanos) := by
  have hsame : m.toUtc = .ok m := by
    have hutc : utc m.nanos = m := by rw [utc, ← hutc]
    rw [toUtc, hutc, checked, if_pos hyears]
  rw [addMonths, hsame]
  rfl

/-- A time goes on by months at the place in the month that it has. -/
theorem addMonths_placed {place : Int} (h : HasMonth months) (hplace : 0 ≤ place)
    (hshort : place < monthLength months)
    (hyears : (utc ((monthStart months).nanos + place)).inYears = true) (count : Nat) :
    (utc ((monthStart months).nanos + place)).addMonths count =
      (utc ((monthStart (months + count)).nanos + place)).checked := by
  have hmonth : (utc ((monthStart months).nanos + place)).localDate.toMonths = months :=
    toMonths_of_between rfl h (by simp only [utc]; omega) (by simp only [utc]; omega)
  have hhere : (utc ((monthStart months).nanos + place)).nanos - (monthStart months).nanos =
      place := by
    simp only [utc]
    omega
  rw [addMonths_eq rfl hyears, hmonth, hhere, later, offset_monthStart, utc]

/-- Months of a time in UTC lead to a time, however many: no place in a month is past the end of the
last month. -/
theorem exists_addMonths (hutc : m.offset = 0) (hyears : m.inYears = true) (count : Nat) :
    ∃ next, m.addMonths count = .ok next ∧ next.offset = 0 ∧ next.inYears = true := by
  have hmonth := hasMonth_toMonths hutc hyears
  obtain ⟨hlo, -⟩ := monthStart_bounds hutc hmonth
  have hhi := lt_monthStart_add hutc hmonth
  obtain ⟨-, hlength⟩ := monthLength_bounds m.localDate.toMonths
  have hoffset := offset_monthStart (m.localDate.toMonths + count)
  obtain ⟨hfirst, -⟩ := bounds_of_inYears (inYears_monthStart _) hoffset
  have hlast : (monthStart (m.localDate.toMonths + count)).nanos ≤
      (monthStart (9999 * 12 + 11)).nanos := by
    by_cases hhas : HasMonth (m.localDate.toMonths + count)
    · exact monthStart_mono hhas ⟨by decide, by decide⟩ hhas.upper
    · rw [monthStart_of_not_hasMonth hhas]
      decide +kernel
  have hend : (monthStart (9999 * 12 + 11)).nanos + 31 * nanosPerDay = greatestNanos + 1 := by
    decide +kernel
  rw [addMonths_eq hutc hyears]
  generalize monthStart (m.localDate.toMonths + count) = target at *
  have hnext : (⟨target.nanos + (m.nanos - (monthStart m.localDate.toMonths).nanos),
      target.offset⟩ : Moment).inYears = true :=
    inYears_of_utc hoffset (by dsimp only; omega) (by dsimp only; omega)
  exact ⟨_, if_pos hnext, hoffset, hnext⟩

theorem floorMonths_eq_ok {count : Nat} {start : Moment} :
    m.floorMonths count = .ok start ↔ count ≠ 0 ∧ (utc m.nanos).inYears = true ∧
      start = monthStart ((utc m.nanos).localDate.toMonths / count * count) := by
  constructor
  · intro h
    obtain ⟨m', hutc, h⟩ := bind_eq_ok.mp h
    obtain ⟨hyears, rfl⟩ := checked_eq_ok.mp hutc
    dsimp only at h
    split at h
    · cases h
    · rename_i hcount
      cases h
      exact ⟨hcount, hyears, rfl⟩
  · rintro ⟨hcount, hyears, rfl⟩
    exact bind_eq_ok.mpr ⟨_, checked_eq_ok.mpr ⟨hyears, rfl⟩, if_neg hcount⟩

end Sluice.Moment
