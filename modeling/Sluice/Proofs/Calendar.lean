import Sluice.Time.Calendar

/-!
Day numbers and dates of the calendar are two views of one thing: every day number has a valid date
that leads back to it.
-/
namespace Sluice.Calendar

/-! ## Years -/

theorem daysBeforeYear_succ (year : Int) :
    daysBeforeYear (year + 1) = daysBeforeYear year + 365 + if isLeap year then 1 else 0 := by
  unfold daysBeforeYear isLeap
  by_cases h4 : year % 4 = 0 <;> by_cases h100 : year % 100 = 0 <;>
    by_cases h400 : year % 400 = 0 <;> simp [h4, h100, h400] <;> omega

/-- A year starts close to where years of the mean length put it. -/
theorem daysBeforeYear_near (year : Int) :
    146097 * year - 288 ≤ 400 * daysBeforeYear year ∧
      400 * daysBeforeYear year ≤ 146097 * year + 600 := by
  unfold daysBeforeYear
  omega

theorem yearOfDay_bounds (days : Int) :
    daysBeforeYear (yearOfDay days) ≤ days ∧ days < daysBeforeYear (yearOfDay days + 1) := by
  unfold yearOfDay
  simp only
  generalize hg : 400 * days / 146097 = guess
  have before := daysBeforeYear_near (guess - 1)
  have after := daysBeforeYear_near (guess + 1 + 1)
  split
  · rw [Int.sub_add_cancel]
    omega
  · split
    · omega
    · omega

theorem daysBeforeYear_mono {a b : Int} (h : a ≤ b) : daysBeforeYear a ≤ daysBeforeYear b := by
  unfold daysBeforeYear
  omega

theorem le_yearOfDay_iff {year days : Int} :
    year ≤ yearOfDay days ↔ daysBeforeYear year ≤ days := by
  obtain ⟨lo, hi⟩ := yearOfDay_bounds days
  constructor
  · intro h
    exact Int.le_trans (daysBeforeYear_mono h) lo
  · intro h
    refine Int.not_lt.mp fun hlt => ?_
    have := @daysBeforeYear_mono (yearOfDay days + 1) year (by omega)
    omega

theorem yearOfDay_le_iff {year days : Int} :
    yearOfDay days ≤ year ↔ days < daysBeforeYear (year + 1) := by
  have := @le_yearOfDay_iff (year + 1) days
  omega

/-! ## Months -/

theorem daysInMonth_le (year : Int) (month : Nat) : daysInMonth year month ≤ 31 := by
  unfold daysInMonth
  split
  case h_1 => split <;> decide
  all_goals decide

theorem le_daysInMonth {year : Int} {month : Nat} (h : 1 ≤ month) (h' : month ≤ 12) :
    28 ≤ daysInMonth year month := by
  unfold daysInMonth
  split
  case h_1 => split <;> decide
  case h_13 => grind
  all_goals decide

/-- The days of `count` months from `month` on. -/
def daysOfMonths (year : Int) (month count : Nat) : Nat :=
  (List.range' month count).foldr (daysInMonth year · + ·) 0

theorem daysOfMonths_succ (year : Int) (month count : Nat) :
    daysOfMonths year month (count + 1) =
      daysInMonth year month + daysOfMonths year (month + 1) count := by
  simp [daysOfMonths, List.range'_succ]

theorem daysOfMonths_add (year : Int) (month a b : Nat) :
    daysOfMonths year month (a + b) =
      daysOfMonths year month a + daysOfMonths year (month + a) b := by
  induction a generalizing month with
  | zero => simp [daysOfMonths]
  | succ a ih =>
      rw [Nat.succ_add, daysOfMonths_succ, daysOfMonths_succ, ih, ← Nat.add_assoc,
        Nat.add_right_comm month, Nat.add_assoc month]

theorem daysBeforeMonth_eq (year : Int) (month : Nat) :
    daysBeforeMonth year month = daysOfMonths year 1 (month - 1) := rfl

theorem daysOfMonths_year (year : Int) :
    (daysOfMonths year 1 12 : Int) = 365 + if isLeap year then 1 else 0 := by
  simp only [daysOfMonths_succ, daysInMonth]
  split <;> simp [daysOfMonths]

/-- Splitting counts off whole months and stops inside the last one. -/
theorem splitMonths_spec {year : Int} {rest left month : Nat}
    (h : rest < daysOfMonths year month (left + 1)) :
    ∃ passed ≤ left, (splitMonths year rest left month).1 = month + passed ∧
      1 ≤ (splitMonths year rest left month).2 ∧
      (splitMonths year rest left month).2 ≤ daysInMonth year (month + passed) ∧
      rest + 1 = daysOfMonths year month passed + (splitMonths year rest left month).2 := by
  induction left generalizing rest month with
  | zero =>
      rw [daysOfMonths_succ] at h
      have hlt : rest < daysInMonth year month := by simpa [daysOfMonths] using h
      exact ⟨0, Nat.le_refl _, rfl, by simp [splitMonths], hlt,
        by simp [splitMonths, daysOfMonths]⟩
  | succ left ih =>
      rw [daysOfMonths_succ] at h
      by_cases hlt : rest < daysInMonth year month
      · simp only [splitMonths, hlt, ↓reduceIte]
        exact ⟨0, Nat.zero_le _, rfl, by omega, hlt, by simp [daysOfMonths]⟩
      · obtain ⟨passed, hp, hm, h1, hd, hs⟩ :=
          @ih (rest - daysInMonth year month) (month + 1) (by omega)
        simp only [splitMonths, hlt, ↓reduceIte]
        refine ⟨passed + 1, by omega, by omega, h1, ?_, ?_⟩
        · rwa [show month + (passed + 1) = month + 1 + passed by omega]
        · rw [daysOfMonths_succ]
          omega

/-! ## Dates -/

theorem ofDays_spec (days : Int) :
    (Date.ofDays days).isValid = true ∧ (Date.ofDays days).toDays = days := by
  obtain ⟨lo, hi⟩ := yearOfDay_bounds days
  rw [daysBeforeYear_succ] at hi
  have hyear := daysOfMonths_year (yearOfDay days)
  have hrest : (days - daysBeforeYear (yearOfDay days)).toNat <
      daysOfMonths (yearOfDay days) 1 (11 + 1) := by
    have : (daysOfMonths (yearOfDay days) 1 (11 + 1) : Int) =
      365 + if isLeap (yearOfDay days) then 1 else 0 := hyear
    omega
  obtain ⟨passed, hp, hm, h1, hd, hs⟩ := splitMonths_spec hrest
  constructor
  · simp only [Date.ofDays, Date.isValid, hm, Bool.and_eq_true, decide_eq_true_eq]
    exact ⟨⟨⟨by omega, by omega⟩, h1⟩, hd⟩
  · simp only [Date.ofDays, Date.toDays, hm, daysBeforeMonth_eq, Nat.add_sub_cancel_left]
    omega

theorem isValid_ofDays (days : Int) : (Date.ofDays days).isValid = true := (ofDays_spec days).1

theorem toDays_ofDays (days : Int) : (Date.ofDays days).toDays = days := (ofDays_spec days).2

theorem daysOfMonths_mono (year : Int) {a b : Nat} (h : a ≤ b) :
    daysOfMonths year 1 a ≤ daysOfMonths year 1 b := by
  obtain ⟨c, rfl⟩ := Nat.exists_eq_add_of_le h
  rw [daysOfMonths_add]
  exact Nat.le_add_right _ _

theorem toDays_month_bounds {d : Date} (h : d.isValid = true) :
    daysBeforeYear d.year + daysOfMonths d.year 1 (d.month - 1) ≤ d.toDays ∧
      d.toDays < daysBeforeYear d.year + daysOfMonths d.year 1 d.month := by
  simp only [Date.isValid, Bool.and_eq_true, decide_eq_true_eq] at h
  obtain ⟨⟨⟨h1, -⟩, hd1⟩, hd⟩ := h
  have hmonth : daysOfMonths d.year 1 d.month =
      daysOfMonths d.year 1 (d.month - 1) + daysInMonth d.year d.month := by
    obtain ⟨month, hmonth⟩ : ∃ month, d.month = month + 1 := ⟨d.month - 1, by omega⟩
    rw [hmonth, daysOfMonths_add, Nat.add_sub_cancel, Nat.add_comm 1 month]
    simp [daysOfMonths]
  simp only [Date.toDays, daysBeforeMonth_eq]
  omega

theorem toDays_bounds {d : Date} (h : d.isValid = true) :
    daysBeforeYear d.year ≤ d.toDays ∧ d.toDays < daysBeforeYear (d.year + 1) := by
  obtain ⟨hlo, hhi⟩ := toDays_month_bounds h
  simp only [Date.isValid, Bool.and_eq_true, decide_eq_true_eq] at h
  have hmono := daysOfMonths_mono d.year h.1.1.2
  have hyear := daysOfMonths_year d.year
  rw [daysBeforeYear_succ]
  omega

theorem yearOfDay_toDays {d : Date} (h : d.isValid = true) : yearOfDay d.toDays = d.year := by
  obtain ⟨lo, hi⟩ := toDays_bounds h
  have := le_yearOfDay_iff.mpr lo
  have := yearOfDay_le_iff.mpr hi
  omega

theorem toDays_lt {d d' : Date} (h : d.isValid = true) (h' : d'.isValid = true)
    (hlt : d.toMonths < d'.toMonths) : d.toDays < d'.toDays := by
  obtain ⟨-, hhi⟩ := toDays_bounds h
  obtain ⟨hlo', -⟩ := toDays_bounds h'
  obtain ⟨-, hmonth⟩ := toDays_month_bounds h
  obtain ⟨hmonth', -⟩ := toDays_month_bounds h'
  simp only [Date.isValid, Bool.and_eq_true, decide_eq_true_eq] at h h'
  simp only [Date.toMonths] at hlt
  rcases Int.lt_trichotomy d.year d'.year with hyear | hyear | hyear
  · have := @daysBeforeYear_mono (d.year + 1) d'.year hyear
    omega
  · have := daysOfMonths_mono d.year (a := d.month) (b := d'.month - 1) (by omega)
    rw [← hyear] at hmonth'
    omega
  · omega

theorem toDays_injective {d d' : Date} (h : d.isValid = true) (h' : d'.isValid = true)
    (heq : d.toDays = d'.toDays) : d = d' := by
  have hmonths : d.toMonths = d'.toMonths := by
    rcases Int.lt_trichotomy d.toMonths d'.toMonths with hlt | hsame | hlt
    · have := toDays_lt h h' hlt
      omega
    · exact hsame
    · have := toDays_lt h' h hlt
      omega
  have hyear : d.year = d'.year := by rw [← yearOfDay_toDays h, heq, yearOfDay_toDays h']
  simp only [Date.isValid, Bool.and_eq_true, decide_eq_true_eq] at h h'
  simp only [Date.toMonths, hyear] at hmonths
  have hmonth : d.month = d'.month := by omega
  have hday : d.day = d'.day := by
    simp only [Date.toDays, hyear, hmonth] at heq
    omega
  cases d
  cases d'
  simp_all

theorem ofDays_toDays {d : Date} (h : d.isValid = true) : Date.ofDays d.toDays = d :=
  toDays_injective (isValid_ofDays _) h (toDays_ofDays _)

/-! ## First days -/

theorem isValid_firstOfMonth (months : Int) : (Date.firstOfMonth months).isValid = true := by
  have hmonth : 1 ≤ daysInMonth (months / 12) ((months % 12).toNat + 1) :=
    Nat.le_trans (by decide) (le_daysInMonth (by omega) (by omega))
  simp [Date.firstOfMonth, Date.isValid, hmonth]
  omega

theorem toMonths_firstOfMonth (months : Int) : (Date.firstOfMonth months).toMonths = months := by
  simp only [Date.firstOfMonth, Date.toMonths]
  omega

/-- The days of a month counted from the start of year 0. -/
def monthDays (months : Int) : Nat := daysInMonth (months / 12) ((months % 12).toNat + 1)

theorem monthDays_bounds (months : Int) : 28 ≤ monthDays months ∧ monthDays months ≤ 31 :=
  ⟨le_daysInMonth (by omega) (by omega), daysInMonth_le _ _⟩

/-- Months follow one another without a gap. -/
theorem toDays_firstOfMonth_succ (months : Int) :
    (Date.firstOfMonth (months + 1)).toDays =
      (Date.firstOfMonth months).toDays + monthDays months := by
  simp only [Date.firstOfMonth, Date.toDays, daysBeforeMonth_eq, Nat.add_sub_cancel, monthDays]
  by_cases hlast : months % 12 = 11
  · have hyear : (months + 1) / 12 = months / 12 + 1 := by omega
    have hmonth : (months + 1) % 12 = 0 := by omega
    have hcount : (months % 12).toNat = 11 := by omega
    have hwhole := daysOfMonths_year (months / 12)
    rw [daysOfMonths_add (months / 12) 1 11 1, daysOfMonths_succ (months / 12) 12] at hwhole
    simp only [hyear, hmonth, hcount, daysBeforeYear_succ, daysOfMonths, Int.toNat_zero,
      List.range'_zero, List.foldr_nil] at hwhole ⊢
    have htwelve : daysInMonth (months / 12) (11 + 1) = daysInMonth (months / 12) 12 := rfl
    omega
  · have hyear : (months + 1) / 12 = months / 12 := by omega
    have hmonth : ((months + 1) % 12).toNat = (months % 12).toNat + 1 := by omega
    have hnext := daysOfMonths_add (months / 12) 1 (months % 12).toNat 1
    rw [daysOfMonths_succ (months / 12) (1 + (months % 12).toNat), Nat.add_comm 1] at hnext
    rw [hyear, hmonth, hnext]
    simp only [daysOfMonths, List.range'_zero, List.foldr_nil]
    omega

theorem toDays_firstOfMonth_lt {a b : Int} (h : a < b) :
    (Date.firstOfMonth a).toDays < (Date.firstOfMonth b).toDays :=
  toDays_lt (isValid_firstOfMonth a) (isValid_firstOfMonth b)
    (by rw [toMonths_firstOfMonth, toMonths_firstOfMonth]; exact h)

theorem toDays_between_firsts {d : Date} (h : d.isValid = true) :
    (Date.firstOfMonth d.toMonths).toDays ≤ d.toDays ∧
      d.toDays < (Date.firstOfMonth (d.toMonths + 1)).toDays := by
  refine ⟨?_, toDays_lt h (isValid_firstOfMonth _) (by rw [toMonths_firstOfMonth]; omega)⟩
  have hfirst : Date.firstOfMonth d.toMonths = ⟨d.year, d.month, 1⟩ := by
    simp only [Date.isValid, Bool.and_eq_true, decide_eq_true_eq] at h
    simp only [Date.firstOfMonth, Date.toMonths, Date.mk.injEq, and_true]
    omega
  simp only [Date.isValid, Bool.and_eq_true, decide_eq_true_eq] at h
  rw [hfirst]
  simp only [Date.toDays]
  omega

end Sluice.Calendar
