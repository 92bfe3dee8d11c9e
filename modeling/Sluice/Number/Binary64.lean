/-!
Finite binary64 numbers, held as exact integers: a value is `mantissa * 2 ^ shift` units of
`2 ^ -1074`, with a sign. Every operation takes the exact result and rounds it once to the nearest
number, so order and equality are those of the units.
-/
namespace Sluice

/-- A finite binary64 number. Each value has one form, zero has two. -/
structure Binary64 where
  negative : Bool
  mantissa : Nat
  shift : Nat
  canonical : mantissa < Nat.pow 2 53 ∧ shift ≤ 2045 ∧ (shift = 0 ∨ Nat.pow 2 52 ≤ mantissa)
deriving DecidableEq

namespace Binary64

/-- How many units of `2 ^ -1074` make one. -/
def unitsPerOne : Nat := Nat.pow 2 1074

/-- The distance from zero, in units. -/
def magnitude (x : Binary64) : Nat := x.mantissa * Nat.pow 2 x.shift

/-- The value in units. Both zeros are `0`. -/
def units (x : Binary64) : Int := if x.negative then -(x.magnitude : Int) else x.magnitude

def zero (negative : Bool) : Binary64 := ⟨negative, 0, 0, by decide⟩

/-- Values compare by their units, so the two zeros are equal. -/
def cmp (x y : Binary64) : Ordering := compare x.units y.units

/-! ## Rounding -/

/-- The quotient `num / den` to the nearest integer, a half going to the even neighbour. -/
def roundEven (num den : Nat) : Nat :=
  let below := num / den
  let twice := 2 * (num % den)
  if twice < den ∨ (twice = den ∧ below % 2 = 0) then below else below + 1

/-- The number nearest to `num / den` units; `none` past the largest. -/
def nearest? (negative : Bool) (num den : Nat) : Option Binary64 :=
  let spare := (num / den).log2 + 1 - 53
  let rounded := roundEven num (den * Nat.pow 2 spare)
  let (mantissa, shift) :=
    if rounded = Nat.pow 2 53 then (Nat.pow 2 52, spare + 1) else (rounded, spare)
  if h : mantissa < Nat.pow 2 53 ∧ shift ≤ 2045 ∧ (shift = 0 ∨ Nat.pow 2 52 ≤ mantissa) then
    some ⟨negative, mantissa, shift, h⟩
  else none

/-! ## Arithmetic -/

def ofInt? (n : Int) : Option Binary64 := nearest? (n < 0) (n.natAbs * unitsPerOne) 1

/-- The rounded sum. Opposite numbers give the positive zero. -/
def add? (x y : Binary64) : Option Binary64 :=
  let total := x.units + y.units
  if total = 0 then some (zero (x.negative && y.negative))
  else nearest? (total < 0) total.natAbs 1

def divNat? (x : Binary64) (n : Nat) : Option Binary64 := nearest? x.negative x.magnitude n

/-- The whole part, toward zero. -/
def trunc (x : Binary64) : Int := x.units.tdiv unitsPerOne

/-- What `trunc` leaves, in units. It is a number again, so nothing is rounded. -/
def fractUnits (x : Binary64) : Int := x.units.tmod unitsPerOne

/-- The sum from left to right, starting at the negative zero; `none` once it passes the largest
number, from where no finite summand leads back. -/
def sum? (xs : List Binary64) : Option Binary64 := xs.foldlM add? (zero true)

/-- The rounded sum over the count; of no numbers there is none. -/
def mean? (xs : List Binary64) : Option Binary64 :=
  if xs.isEmpty then none else (sum? xs).bind (divNat? · xs.length)

/-- The least number, the first of equals. -/
def least? : List Binary64 → Option Binary64
  | [] => none
  | x :: xs => some (xs.foldl (fun best y => if y.cmp best = .lt then y else best) x)

/-- The greatest number, the first of equals. -/
def greatest? : List Binary64 → Option Binary64
  | [] => none
  | x :: xs => some (xs.foldl (fun best y => if y.cmp best = .gt then y else best) x)

end Binary64
end Sluice
