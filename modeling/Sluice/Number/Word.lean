/-!
The 64-bit words in which counts and milliseconds are kept. Arithmetic wraps around at the ends of
their ranges.
-/
namespace Sluice.Word

/-- One past the largest unsigned word: `2 ^ 64`. -/
def unsignedLimit : Nat := 0x10000000000000000

/-- One past the largest signed word, and the distance of the least one from zero: `2 ^ 63`. -/
def signedLimit : Nat := 0x8000000000000000

def FitsUnsigned (n : Int) : Prop := 0 ≤ n ∧ n < unsignedLimit

def FitsSigned (n : Int) : Prop := -signedLimit ≤ n ∧ n < signedLimit

instance (n : Int) : Decidable (FitsUnsigned n) := by unfold FitsUnsigned; infer_instance

instance (n : Int) : Decidable (FitsSigned n) := by unfold FitsSigned; infer_instance

/-- The signed word that agrees with `n` up to a multiple of `2 ^ 64`. -/
def wrapSigned (n : Int) : Int := n.bmod unsignedLimit

/-- The unsigned word that agrees with `n` up to a multiple of `2 ^ 64`. -/
def wrapUnsigned (n : Int) : Nat := (n.emod unsignedLimit).toNat

theorem wrapSigned_of_fits {n : Int} (h : FitsSigned n) : wrapSigned n = n := by
  obtain ⟨lo, hi⟩ := h
  simp only [signedLimit] at lo hi
  simp only [wrapSigned, unsignedLimit]
  rw [Int.bmod_eq_of_le] <;> omega

theorem wrapUnsigned_of_fits {n : Nat} (h : n < unsignedLimit) : wrapUnsigned n = n := by
  have hmod : (n : Int).emod unsignedLimit = n :=
    Int.emod_eq_of_lt (Int.natCast_nonneg n) (Int.ofNat_lt.mpr h)
  rw [wrapUnsigned, hmod, Int.toNat_natCast]

end Sluice.Word
