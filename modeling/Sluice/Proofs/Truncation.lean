import Sluice.Proofs.Months
import Sluice.Proofs.Partition

/-!
Two ways to the millisecond. Counting whole milliseconds goes toward the epoch, cutting off what is
below the millisecond goes back in time: they agree from the epoch on, and before it on whole
milliseconds only.
-/
namespace Sluice.Moment

variable {m start : Moment} {width offset : Int}

/-- The times that counting their milliseconds does not move forward. -/
def Agrees (m : Moment) : Prop := 0 ≤ m.nanos ∨ m.nanos % nanosPerMilli = 0

instance (m : Moment) : Decidable m.Agrees := by unfold Agrees; infer_instance

theorem toMillis_of_agrees (h : m.Agrees) :
    m.toMillis * nanosPerMilli = m.truncateMillis.nanos := by
  have hround : 0 ≤ m.nanos ∨ nanosPerMilli ∣ m.nanos := h.imp_right Int.dvd_of_emod_eq_zero
  rw [truncateMillis_nanos, toMillis, Int.tdiv_eq_ediv, if_pos hround, Int.add_zero]
  simp only [nanosPerMilli]
  omega

/-- Where the two ways part, counting ends at the next millisecond. -/
theorem toMillis_of_not_agrees (h : ¬ m.Agrees) :
    m.toMillis * nanosPerMilli = m.truncateMillis.nanos + nanosPerMilli := by
  have hround : ¬ (0 ≤ m.nanos ∨ nanosPerMilli ∣ m.nanos) :=
    fun hround => h (hround.imp_right Int.emod_eq_zero_of_dvd)
  have hsign : Int.sign nanosPerMilli = 1 := rfl
  rw [truncateMillis_nanos, toMillis, Int.tdiv_eq_ediv, if_neg hround, hsign]
  simp only [nanosPerMilli]
  omega

theorem toMillis_bounds (m : Moment) :
    min m.nanos 0 ≤ m.toMillis * nanosPerMilli ∧ m.toMillis * nanosPerMilli ≤ max m.nanos 0 ∧
      m.nanos < m.toMillis * nanosPerMilli + nanosPerMilli := by
  have hcut := truncateMillis_nanos m
  by_cases h : m.Agrees
  · have hcount := toMillis_of_agrees h
    simp only [Agrees, nanosPerMilli] at *
    omega
  · have hcount := toMillis_of_not_agrees h
    simp only [Agrees, nanosPerMilli] at *
    omega

theorem ofMillis_toMillis (hyears : (utc m.nanos).inYears = true) :
    ofMillis m.toMillis = .ok (utc (m.toMillis * nanosPerMilli)) := by
  obtain ⟨hfirst, hlast⟩ := bounds_of_inYears hyears rfl
  obtain ⟨hlo, hhi, -⟩ := toMillis_bounds m
  simp only [utc, leastNanos, greatestNanos, nanosPerSecond] at hfirst hlast
  refine if_pos (inYears_of_utc rfl ?_ ?_)
  · simp only [utc, leastNanos, nanosPerSecond]
    omega
  · simp only [utc, greatestNanos, nanosPerSecond]
    omega

/-- The start of the fixed width around a time lies within that width before the time's whole
milliseconds, also where the arithmetic on the way wraps around. -/
theorem floor_near (hyears : (utc m.nanos).inYears = true) (hwidth : 0 < width)
    (hword : Word.FitsSigned width) (h : (Interval.millis width).floor m offset = .ok start) :
    start.nanos ≤ m.toMillis * nanosPerMilli ∧
      m.toMillis * nanosPerMilli < start.nanos + width * nanosPerMilli := by
  obtain ⟨millis, hmillis, hstart⟩ := Windows.floor_millis h
  obtain ⟨millis', turns, hmillis', ⟨hleast, hgreatest⟩, hle, hlt⟩ :=
    @exists_floorMillis? m.toMillis width offset hwidth
  cases hmillis'.symm.trans hmillis
  obtain ⟨rfl, hsupported⟩ := supported_of_ofMillis hstart
  obtain ⟨hfirst, hlast⟩ := bounds_of_inYears hyears rfl
  obtain ⟨hsince, huntil⟩ := bounds_of_inYears hsupported.inYears rfl
  obtain ⟨hlo, hhi, -⟩ := toMillis_bounds m
  obtain ⟨-, hwide⟩ := hword
  simp only [utc, leastNanos, greatestNanos, nanosPerSecond, nanosPerMilli, Word.signedLimit,
    Word.unsignedLimit] at *
  -- A turn is wider than a width and the supported years together.
  obtain rfl : turns = 0 := by omega
  constructor
  · omega
  · omega

/-- Counting the milliseconds of a time and going back to a time leads to the same instant as
cutting off what is below the millisecond exactly from the epoch on and on whole milliseconds, and
else to the next millisecond. The start of a fixed width is later than its time only there, and only
where it is that next millisecond. -/
theorem ofMillis_toMillis_truncates (hyears : (utc m.nanos).inYears = true) :
    ∃ counted, ofMillis m.toMillis = .ok counted ∧
      (counted.nanos = m.truncateMillis.nanos ↔ m.Agrees) ∧
      (¬ m.Agrees → counted.nanos = m.truncateMillis.nanos + nanosPerMilli) ∧
      ∀ width offset start, 0 < width → Word.FitsSigned width →
        (Interval.millis width).floor m offset = .ok start →
        (start.nanos ≤ m.nanos ↔ m.Agrees ∨ start.nanos ≠ counted.nanos) ∧
          m.nanos < start.nanos + width * nanosPerMilli := by
  have hcut := truncateMillis_nanos m
  have hagrees : m.Agrees → m.toMillis * nanosPerMilli = m.truncateMillis.nanos :=
    toMillis_of_agrees
  have hdiffers : ¬ m.Agrees →
      m.toMillis * nanosPerMilli = m.truncateMillis.nanos + nanosPerMilli :=
    toMillis_of_not_agrees
  refine ⟨_, ofMillis_toMillis hyears, ⟨fun h => ?_, hagrees⟩, hdiffers, ?_⟩
  · by_contra hparts
    have hnext := hdiffers hparts
    simp only [utc, nanosPerMilli] at *
    omega
  · intro width offset start hwidth hword hfloor
    obtain ⟨hle, hlt⟩ := floor_near hyears hwidth hword hfloor
    obtain ⟨-, -, hnear⟩ := toMillis_bounds m
    obtain ⟨millis, -, hstart⟩ := Windows.floor_millis hfloor
    obtain ⟨rfl, -⟩ := supported_of_ofMillis hstart
    by_cases h : m.Agrees
    · have hcount := hagrees h
      simp only [utc, nanosPerMilli] at *
      simp only [h, true_or, iff_true]
      omega
    · have hcount := hdiffers h
      simp only [h, false_or]
      simp only [utc, nanosPerMilli, Agrees] at *
      omega

/-- Half a microsecond into the last day before the epoch, where counting goes on by a millisecond
and flooring does not. -/
theorem ofMillis_toMillis_truncates_day :
    ∃ m counted start : Moment, m = ⟨-86399999999500, 60⟩ ∧ start = utc (-86400000000000) ∧
      (utc m.nanos).inYears = true ∧ ¬ m.Agrees ∧ ofMillis m.toMillis = .ok counted ∧
      (counted.nanos = m.truncateMillis.nanos ↔ m.Agrees) ∧
      counted.nanos = m.truncateMillis.nanos + nanosPerMilli ∧
      (Interval.millis 1000).floor m 0 = .ok start ∧
      (start.nanos ≤ m.nanos ↔ m.Agrees ∨ start.nanos ≠ counted.nanos) ∧
      m.nanos < start.nanos + 1000 * nanosPerMilli := by
  have hyears : (utc (-86399999999500)).inYears = true := by decide +kernel
  have hparts : ¬ (⟨-86399999999500, 60⟩ : Moment).Agrees := by decide +kernel
  have hfloor : (Interval.millis 1000).floor ⟨-86399999999500, 60⟩ 0 =
      .ok (utc (-86400000000000)) := by decide +kernel
  obtain ⟨counted, hcounted, hsame, hnext, hstarts⟩ :=
    @ofMillis_toMillis_truncates ⟨-86399999999500, 60⟩ hyears
  exact ⟨_, counted, _, rfl, rfl, hyears, hparts, hcounted, hsame, hnext hparts, hfloor,
    hstarts 1000 0 _ (by decide) (by decide) hfloor⟩

/-- A nanosecond before the epoch: counting its milliseconds leads to the epoch, and so does going
back to the start of its second. -/
theorem ofMillis_toMillis_later :
    (utc (-1)).inYears = true ∧ ofMillis (utc (-1)).toMillis = .ok epoch ∧
      (utc (-1)).truncateMillis.nanos = -1000000 ∧ epoch.nanos ≠ -1000000 ∧
      (Interval.millis 1000).floor (utc (-1)) 0 = .ok epoch ∧ (utc (-1)).nanos < epoch.nanos := by
  decide +kernel

end Sluice.Moment
