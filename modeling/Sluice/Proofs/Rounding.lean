import Sluice.Number.Binary64

/-!
Rounding whole numbers to binary64 keeps their order, and moves none by more than a part in
`2 ^ 53` of it.
-/
namespace Sluice.Binary64

variable {m n den : Nat}

/-! ## Quotients -/

/-- A quotient goes to one of its two neighbours, and by half a unit at most. -/
theorem roundEven_cases (n den : Nat) :
    (roundEven n den = n / den ∧ 2 * (n % den) ≤ den) ∨
      (roundEven n den = n / den + 1 ∧ den ≤ 2 * (n % den)) := by
  simp only [roundEven]
  split
  · exact .inl ⟨rfl, by omega⟩
  · exact .inr ⟨rfl, by omega⟩

theorem roundEven_mono (h : m ≤ n) : roundEven m den ≤ roundEven n den := by
  have hquot := @Nat.div_le_div_right m n den h
  rcases Nat.lt_or_eq_of_le hquot with hlt | heq
  · rcases roundEven_cases m den with ⟨hm, -⟩ | ⟨hm, -⟩ <;>
      rcases roundEven_cases n den with ⟨hn, -⟩ | ⟨hn, -⟩ <;> omega
  · -- On the way up between the same neighbours, nothing goes back down.
    have hrest : m % den ≤ n % den := by
      have hm := Nat.div_add_mod m den
      have hn := Nat.div_add_mod n den
      rw [heq] at hm
      omega
    simp only [roundEven, heq]
    split
    · split <;> omega
    · split
      · omega
      · exact Nat.le_refl _

/-! ## The distance between numbers -/

/-- The distance between the numbers of the size of `n`: what the digits past the 53rd come to. -/
def unitAt (n : Nat) : Nat := Nat.pow 2 (n.log2 + 1 - 53)

theorem unitAt_pos (n : Nat) : 0 < unitAt n := Nat.two_pow_pos _

theorem lt_unitAt (n : Nat) : n < 0x20000000000000 * unitAt n := by
  have hlog : n < Nat.pow 2 (n.log2 + 1) := Nat.lt_log2_self
  have hle : Nat.pow 2 (n.log2 + 1) ≤ Nat.pow 2 (53 + (n.log2 + 1 - 53)) :=
    Nat.pow_le_pow_right (by decide) (by omega)
  have hsplit : Nat.pow 2 (53 + (n.log2 + 1 - 53)) = 0x20000000000000 * unitAt n :=
    Nat.pow_add 2 53 _
  omega

/-- Below `2 ^ 53` all whole numbers are there, and above only those of 53 digits. -/
theorem unitAt_le (n : Nat) : unitAt n = 1 ∨ 0x10000000000000 * unitAt n ≤ n := by
  by_cases hshort : n.log2 + 1 - 53 = 0
  · exact .inl (by rw [unitAt, hshort])
  · have hne : n ≠ 0 := by
      rintro rfl
      exact hshort rfl
    have hlog : Nat.pow 2 n.log2 ≤ n := Nat.log2_self_le hne
    have hsplit : Nat.pow 2 (52 + (n.log2 + 1 - 53)) = 0x10000000000000 * unitAt n :=
      Nat.pow_add 2 52 _
    rw [show 52 + (n.log2 + 1 - 53) = n.log2 by omega] at hsplit
    exact .inr (hsplit ▸ hlog)

/-- Further up the distance is the same or at least twice as wide. -/
theorem unitAt_mono (h : m ≤ n) : unitAt m = unitAt n ∨ 2 * unitAt m ≤ unitAt n := by
  have hlog : m.log2 ≤ n.log2 := by
    by_cases hm : m = 0
    · rw [hm]
      exact Nat.zero_le _
    · exact (Nat.le_log2 (by omega)).mpr (Nat.le_trans (Nat.log2_self_le hm) h)
  by_cases hsame : m.log2 + 1 - 53 = n.log2 + 1 - 53
  · exact .inl (by rw [unitAt, hsame, unitAt])
  · have hle : Nat.pow 2 (1 + (m.log2 + 1 - 53)) ≤ Nat.pow 2 (n.log2 + 1 - 53) :=
      Nat.pow_le_pow_right (by decide) (by omega)
    have hsplit : Nat.pow 2 (1 + (m.log2 + 1 - 53)) = 2 * unitAt m := Nat.pow_add 2 1 _
    rw [hsplit] at hle
    exact .inr hle

/-! ## Whole numbers -/

/-- What a number is rounded to. -/
def rounded (n : Nat) : Nat := roundEven n (unitAt n) * unitAt n

/-- No number is moved by more than its `2 ^ 53`rd part. -/
theorem rounded_near (n : Nat) :
    0x20000000000000 * n ≤ 0x20000000000000 * rounded n + n ∧
      0x20000000000000 * rounded n ≤ 0x20000000000000 * n + n := by
  have hsplit := Nat.div_add_mod n (unitAt n)
  have hrest := Nat.mod_lt n (unitAt_pos n)
  have hunit := unitAt_le n
  rw [Nat.mul_comm] at hsplit
  rcases roundEven_cases n (unitAt n) with ⟨heq, hhalf⟩ | ⟨heq, hhalf⟩
  · rw [rounded, heq]
    omega
  · rw [rounded, heq, Nat.add_mul, Nat.one_mul]
    omega

theorem roundEven_unitAt_le (n : Nat) : roundEven n (unitAt n) ≤ 0x20000000000000 := by
  have hquot : n / unitAt n < 0x20000000000000 :=
    (Nat.div_lt_iff_lt_mul (unitAt_pos n)).mpr (lt_unitAt n)
  rcases roundEven_cases n (unitAt n) with ⟨heq, -⟩ | ⟨heq, -⟩ <;> omega

theorem le_roundEven_unitAt (h : 0x10000000000000 * unitAt n ≤ n) :
    0x10000000000000 ≤ roundEven n (unitAt n) := by
  have hquot : 0x10000000000000 ≤ n / unitAt n :=
    (Nat.le_div_iff_mul_le (unitAt_pos n)).mpr h
  rcases roundEven_cases n (unitAt n) with ⟨heq, -⟩ | ⟨heq, -⟩ <;> omega

theorem rounded_mono (h : m ≤ n) : rounded m ≤ rounded n := by
  rcases unitAt_mono h with hsame | hwider
  · rw [rounded, rounded, hsame]
    exact Nat.mul_le_mul_right _ (roundEven_mono h)
  · -- The first number of the wider distance lies between the two.
    have hlong : 0x10000000000000 * unitAt n ≤ n := by
      have hpos := unitAt_pos m
      exact (unitAt_le n).resolve_left (by omega)
    have hlow : rounded m ≤ 0x20000000000000 * unitAt m :=
      Nat.mul_le_mul_right _ (roundEven_unitAt_le m)
    have hhigh : 0x10000000000000 * unitAt n ≤ rounded n :=
      Nat.mul_le_mul_right _ (le_roundEven_unitAt hlong)
    omega

/-- Numbers that are further apart than both are rounded stay apart. -/
theorem rounded_lt {unit : Nat} (hunit : 0 < unit) (h : m + n < 0x20000000000000 * (n - m)) :
    rounded (m * unit) < rounded (n * unit) := by
  obtain ⟨hlow, -⟩ := rounded_near (n * unit)
  obtain ⟨-, hhigh⟩ := rounded_near (m * unit)
  have hapart := Nat.mul_lt_mul_of_pos_right h hunit
  obtain ⟨more, rfl⟩ : ∃ more, n = m + more := ⟨n - m, by omega⟩
  rw [Nat.add_sub_cancel_left, Nat.mul_assoc] at hapart
  simp only [Nat.add_mul] at *
  omega

theorem nearest?_eq_some {negative : Bool} {x : Binary64} (h : nearest? negative n 1 = some x) :
    x.negative = negative ∧ x.magnitude = rounded n := by
  have hden : 1 * Nat.pow 2 (n.log2 + 1 - 53) = unitAt n := Nat.one_mul _
  simp only [nearest?, Nat.div_one, hden] at h
  by_cases hcarry : roundEven n (unitAt n) = Nat.pow 2 53
  · -- Rounded up to a 54th digit, the number is held with one digit less and twice the unit.
    simp only [hcarry, ↓reduceIte] at h
    split at h
    · cases h
      refine ⟨rfl, ?_⟩
      show Nat.pow 2 52 * Nat.pow 2 (n.log2 + 1 - 53 + 1) = rounded n
      have hdouble : Nat.pow 2 (n.log2 + 1 - 53 + 1) = unitAt n * 2 := Nat.pow_succ ..
      rw [rounded, hcarry, hdouble]
      simp only [Nat.pow_eq, Nat.reducePow]
      omega
    · cases h
  · simp only [hcarry, ↓reduceIte] at h
    split at h
    · cases h
      exact ⟨rfl, rfl⟩
    · cases h

theorem isSome_nearest? {negative : Bool} (h : n.log2 < 2097) :
    (nearest? negative n 1).isSome = true := by
  have hden : 1 * Nat.pow 2 (n.log2 + 1 - 53) = unitAt n := Nat.one_mul _
  simp only [nearest?, Nat.div_one, hden]
  by_cases hcarry : roundEven n (unitAt n) = Nat.pow 2 53
  · simp only [hcarry, ↓reduceIte]
    rw [dif_pos ⟨by decide, by omega, .inr (Nat.le_refl _)⟩]
    rfl
  · have hcanonical : roundEven n (unitAt n) < Nat.pow 2 53 ∧ n.log2 + 1 - 53 ≤ 2045 ∧
        (n.log2 + 1 - 53 = 0 ∨ Nat.pow 2 52 ≤ roundEven n (unitAt n)) := by
      refine ⟨Nat.lt_of_le_of_ne (roundEven_unitAt_le n) hcarry, by omega, ?_⟩
      by_cases hshort : n.log2 + 1 - 53 = 0
      · exact .inl hshort
      · refine .inr (le_roundEven_unitAt ((unitAt_le n).resolve_left fun hone => ?_))
        have hwide : Nat.pow 2 1 ≤ unitAt n := Nat.pow_le_pow_right (by decide) (by omega)
        rw [hone] at hwide
        exact absurd hwide (by decide)
    simp only [hcarry, ↓reduceIte]
    rw [dif_pos hcanonical]
    rfl

/-! ## Words -/

theorem exists_unitsPerOne : ∃ digits, unitsPerOne = Nat.pow 2 digits ∧ digits ≤ 1074 := by
  unfold unitsPerOne
  exact ⟨1074, rfl, Nat.le_refl _⟩

theorem unitsPerOne_pos : 0 < unitsPerOne := by
  obtain ⟨digits, hdigits, -⟩ := exists_unitsPerOne
  rw [hdigits]
  exact Nat.two_pow_pos digits

theorem isSome_ofInt? {word : Int} (h : word.natAbs < 0x10000000000000000) :
    (ofInt? word).isSome = true := by
  refine isSome_nearest? ?_
  by_cases hzero : word.natAbs * unitsPerOne = 0
  · rw [hzero]
    decide
  · obtain ⟨digits, hdigits, hle⟩ := exists_unitsPerOne
    have hlt : word.natAbs * unitsPerOne < Nat.pow 2 (64 + digits) := by
      have hsplit : Nat.pow 2 (64 + digits) = 0x10000000000000000 * Nat.pow 2 digits :=
        Nat.pow_add 2 64 digits
      rw [hsplit, ← hdigits]
      exact Nat.mul_lt_mul_of_pos_right h unitsPerOne_pos
    have hlog := (Nat.log2_lt hzero).mpr hlt
    omega

theorem units_ofInt? {word : Nat} {x : Binary64} (h : ofInt? word = some x) :
    x.units = rounded (word * unitsPerOne) := by
  obtain ⟨hsign, hmagnitude⟩ := nearest?_eq_some h
  have hnonneg : decide ((word : Int) < 0) = false := decide_eq_false (by omega)
  rw [hnonneg] at hsign
  rw [units, hsign, hmagnitude, Int.natAbs_natCast]
  rfl

theorem lt_of_units_lt {x y : Binary64} (hx : ofInt? m = some x) (hy : ofInt? n = some y)
    (h : x.units < y.units) : m < n := by
  rw [units_ofInt? hx, units_ofInt? hy] at h
  rcases Nat.lt_or_ge m n with hlt | hle
  · exact hlt
  · have hmono := rounded_mono (Nat.mul_le_mul_right unitsPerOne hle)
    omega

/-- Words that are further apart than both are rounded stay apart. -/
theorem units_lt {x y : Binary64} (hx : ofInt? m = some x) (hy : ofInt? n = some y)
    (h : m + n < 0x20000000000000 * (n - m)) : x.units < y.units := by
  rw [units_ofInt? hx, units_ofInt? hy]
  exact Int.ofNat_lt.mpr (rounded_lt unitsPerOne_pos h)

end Sluice.Binary64
