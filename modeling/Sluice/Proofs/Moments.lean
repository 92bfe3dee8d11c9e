import Sluice.Document
import Sluice.Proofs.Rfc3339

/-!
Moments at the millisecond, the finest distance at which a store tells them apart.
-/
namespace Sluice

namespace Moment

/-! ## Truncation -/

/-- Offsets are whole minutes, so truncation is the same in every local time. -/
theorem truncateMillis_nanos (m : Moment) :
    m.truncateMillis.nanos = m.nanos - m.nanos % nanosPerMilli := by
  have hlocal : m.localNanos = m.nanos + m.offset * nanosPerMinute := rfl
  simp only [truncateMillis, nanosPerSecond, nanosPerMilli, nanosPerMinute] at *
  omega

theorem truncateMillis_mono {a b : Moment} (h : a.nanos ≤ b.nanos) :
    a.truncateMillis.nanos ≤ b.truncateMillis.nanos := by
  simp only [truncateMillis_nanos, nanosPerMilli]
  omega

theorem truncateMillis_emod (m : Moment) : m.truncateMillis.nanos % nanosPerMilli = 0 := by
  simp only [truncateMillis_nanos, nanosPerMilli]
  omega

theorem truncateMillis_eq_self {m : Moment} (h : m.nanos % nanosPerMilli = 0) :
    m.truncateMillis.nanos = m.nanos := by
  rw [truncateMillis_nanos, h, Int.sub_zero]

theorem localDate_truncateMillis (m : Moment) : m.truncateMillis.localDate = m.localDate := by
  have hlocal : m.truncateMillis.localNanos =
      m.localNanos - m.localNanos % nanosPerSecond % nanosPerMilli := by
    simp only [truncateMillis, localNanos]
    omega
  have hday : m.truncateMillis.localNanos / nanosPerDay = m.localNanos / nanosPerDay := by
    rw [hlocal]
    simp only [nanosPerDay, nanosPerSecond, nanosPerMilli]
    omega
  simp only [localDate, hday]

theorem Writable.truncateMillis {m : Moment} (h : m.Writable) : m.truncateMillis.Writable := by
  have hdate := localDate_truncateMillis m
  exact ⟨hdate ▸ h.year_nonneg, hdate ▸ h.year_le, h.offset_lt⟩

/-- What can be written can be written a millisecond later, if that is in a supported year. -/
theorem Writable.later_milli {m later : Moment} (h : m.Writable)
    (hlater : m.later nanosPerMilli = .ok later) :
    later = ⟨m.nanos + nanosPerMilli, m.offset⟩ ∧ later.Writable := by
  simp only [Moment.later, checked] at hlater
  split at hlater
  · rename_i hyears
    cases hlater
    have hlo : Calendar.daysBeforeYear 0 ≤ m.localNanos / nanosPerDay + Calendar.epochDay :=
      Calendar.le_yearOfDay_iff.mp h.year_nonneg
    have hlocal : (⟨m.nanos + nanosPerMilli, m.offset⟩ : Moment).localNanos =
        m.localNanos + nanosPerMilli := by
      simp only [localNanos]
      omega
    simp only [inYears, hlocal, Bool.and_eq_true, decide_eq_true_eq] at hyears
    refine ⟨rfl, ?_, ?_, h.offset_lt⟩
    · refine Calendar.le_yearOfDay_iff.mpr ?_
      rw [hlocal]
      simp only [nanosPerMilli, nanosPerDay, nanosPerSecond, Calendar.epochDay,
        Calendar.daysBeforeYear] at *
      omega
    · refine Calendar.yearOfDay_le_iff.mpr ?_
      rw [hlocal]
      simp only [greatestNanos, nanosPerMilli, nanosPerDay, nanosPerSecond, Calendar.epochDay,
        Calendar.daysBeforeYear] at *
      omega
  · cases hlater

/-! ## Civil moments -/

/-- A moment a year away from the ends of what can be written. -/
structure Civil (m : Moment) : Prop where
  year_pos : 1 ≤ m.localDate.year
  year_le : m.localDate.year ≤ 9998
  offset_lt : m.offset.natAbs < 24 * 60

theorem Civil.truncateMillis {m : Moment} (h : m.Civil) : m.truncateMillis.Civil := by
  have hdate := localDate_truncateMillis m
  exact ⟨hdate ▸ h.year_pos, hdate ▸ h.year_le, h.offset_lt⟩

/-- A year has more than a millisecond, so there is a millisecond after a civil moment. -/
theorem Civil.later_milli {m : Moment} (h : m.Civil) :
    ∃ later, m.later nanosPerMilli = .ok later := by
  have hlo : Calendar.daysBeforeYear 1 ≤ m.localNanos / nanosPerDay + Calendar.epochDay :=
    Calendar.le_yearOfDay_iff.mp h.year_pos
  have hhi : m.localNanos / nanosPerDay + Calendar.epochDay < Calendar.daysBeforeYear 9999 :=
    Calendar.yearOfDay_le_iff.mp h.year_le
  have hlocal : (⟨m.nanos + nanosPerMilli, m.offset⟩ : Moment).localNanos =
      m.localNanos + nanosPerMilli := by
    simp only [localNanos]
    omega
  simp only [Calendar.daysBeforeYear] at hlo hhi
  simp only [later, checked, inYears, hlocal]
  rw [if_pos]
  · exact ⟨_, rfl⟩
  · simp only [Bool.and_eq_true, decide_eq_true_eq]
    simp only [leastNanos, greatestNanos, nanosPerSecond, nanosPerMilli, nanosPerDay,
      Calendar.epochDay] at *
    omega

end Moment

/-! ## Times as texts -/

theorem Moment.ofStored?_text (s : String) : Moment.ofStored? (.text s) = Moment.parse? s := by
  simp only [Moment.ofStored?, Moment.ofStored]
  cases Moment.parse? s <;> rfl

/-- A stored time is ordered against a text of one as the times at the millisecond. -/
theorem Json.order?_stored {value : Json} {s : String} {a b : Moment}
    (ha : Moment.ofStored? value = some a) (hb : Moment.parse? s = some b) :
    value.order? (.text s) =
      some (compare a.truncateMillis.nanos b.truncateMillis.nanos) := by
  have htext : (Json.text s).binary64? = none := rfl
  simp only [Json.order?, htext, Moment.ofStored?_text, ha, hb]
  cases value.binary64? <;> rfl

theorem Json.order?_text {s t : String} {a b : Moment} (hs : Moment.parse? s = some a)
    (ht : Moment.parse? t = some b) :
    (Json.text s).order? (.text t) =
      some (compare a.truncateMillis.nanos b.truncateMillis.nanos) :=
  order?_stored ((Moment.ofStored?_text s).trans hs) ht

end Sluice
