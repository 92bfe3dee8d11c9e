import Sluice.Proofs.Moments
import Sluice.Time.Interval

/-!
Starts of buckets of a fixed width. Wrapping arithmetic loses nothing on the way: the start of the
bucket around a time after the epoch is at most a width before it.
-/
namespace Sluice

namespace Word

theorem wrapSigned_add (m n : Int) : wrapSigned (wrapSigned m + n) = wrapSigned (m + n) :=
  Int.bmod_add_bmod

theorem exists_wrapSigned (n : Int) : ∃ turns, wrapSigned n = n + unsignedLimit * turns := by
  refine ⟨-Int.bdiv n unsignedLimit, ?_⟩
  have h := Int.bmod_add_bdiv n unsignedLimit
  rw [Int.mul_neg, wrapSigned]
  omega

theorem fitsSigned_wrapSigned (n : Int) : FitsSigned (wrapSigned n) := by
  have hlo := @Int.le_bmod n unsignedLimit (by decide)
  have hhi := @Int.bmod_lt n unsignedLimit (by decide)
  simp only [FitsSigned, wrapSigned, signedLimit, unsignedLimit] at *
  omega

end Word

namespace Moment

variable {millis width offset : Int}

/-- The start of a bucket lies within a width before a time, up to whole turns. -/
theorem exists_floorMillis? (hwidth : 0 < width) :
    ∃ start turns, floorMillis? millis width offset = some start ∧ Word.FitsSigned start ∧
      start - Word.unsignedLimit * turns ≤ millis ∧
      millis < start - Word.unsignedLimit * turns + width := by
  obtain ⟨turns, hturns⟩ := Word.exists_wrapSigned (millis - offset)
  have hfloor := Int.ediv_mul_le (Word.wrapSigned (millis - offset)) (Int.ne_of_gt hwidth)
  have hnext := Int.lt_ediv_add_one_mul_self (Word.wrapSigned (millis - offset)) hwidth
  rw [Int.add_mul, Int.one_mul] at hnext
  have hguard : ¬ (width = 0 ∨
      width = -1 ∧ Word.wrapSigned (millis - offset) = -Word.signedLimit) := by
    omega
  generalize hq : Word.wrapSigned (millis - offset) / width * width = q at *
  obtain ⟨turns', hturns'⟩ := Word.exists_wrapSigned (q + offset)
  refine ⟨Word.wrapSigned (q + offset), turns + turns', ?_, Word.fitsSigned_wrapSigned _, ?_, ?_⟩
  · simp only [floorMillis?]
    rw [if_neg hguard, hq, Word.wrapSigned_add]
  · rw [hturns', Int.mul_add]
    omega
  · rw [hturns', Int.mul_add]
    omega

/-- The start of a bucket lies within a width before a time after the epoch, whatever the offset. -/
theorem floorMillis?_eq_some (hmillis : 0 ≤ millis) (hfits : Word.FitsSigned millis)
    (hwidth : 0 < width) (hword : Word.FitsSigned width) :
    ∃ start, floorMillis? millis width offset = some start ∧ start ≤ millis ∧
      millis < start + width := by
  obtain ⟨start, turns, hstart, ⟨hlo, hhi⟩, hle, hlt⟩ :=
    @exists_floorMillis? millis width offset hwidth
  obtain ⟨-, hlate⟩ := hfits
  obtain ⟨-, hwide⟩ := hword
  simp only [Word.signedLimit, Word.unsignedLimit] at *
  obtain rfl : turns = 0 := by omega
  exact ⟨start, hstart, by omega, by omega⟩

/-- Without an offset into the future, every time of a bucket leads to its start. -/
theorem floorMillis?_of_aligned (hmillis : 0 ≤ millis) (hfits : Word.FitsSigned millis)
    (hoffset : 0 ≤ offset) (hshift : Word.FitsSigned offset) (hword : Word.FitsSigned width)
    (steps : Int) (hlo : offset + steps * width ≤ millis)
    (hhi : millis < offset + steps * width + width) :
    floorMillis? millis width offset = some (offset + steps * width) := by
  have hwidth : 0 < width := by omega
  have hwrap : Word.wrapSigned (millis - offset) = millis - offset := by
    refine Word.wrapSigned_of_fits ⟨?_, ?_⟩
    · have := hshift.2
      omega
    · have := hfits.2
      omega
  have hsteps : (millis - offset) / width = steps := by
    exact (Int.ediv_eq_iff_of_pos hwidth).mpr ⟨by omega, by omega⟩
  have hstart : Word.FitsSigned (offset + steps * width) := by
    have hlimit := hfits.2
    have hwide := hword.2
    exact ⟨by omega, by omega⟩
  have hguard : ¬ (width = 0 ∨ width = -1 ∧ millis - offset = -Word.signedLimit) := by omega
  simp only [floorMillis?, hwrap, hsteps]
  rw [if_neg hguard, Word.wrapSigned_add, Int.add_comm, Word.wrapSigned_of_fits hstart]

end Moment
end Sluice
