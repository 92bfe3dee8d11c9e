import Sluice.Number.Binary64

/-!
Decimal text of numbers. A number is written with the fewest digits that read back as itself, and
of those with the nearest; a layout then places the point. Where two are equally near, each layout
has its own choice.
-/
namespace Sluice

/-- The number `digits * 10 ^ exponent`. -/
structure Decimal where
  digits : Nat
  exponent : Int

/-- Which of two equally near decimals is taken: the one with an even last digit, or the greater. -/
inductive Decimal.Tie where
  | toEven | away
deriving DecidableEq, Repr

/-- Whether a number halfway above `below` goes down to it. -/
def Decimal.Tie.goesDown : Tie → Nat → Bool
  | .toEven, below => below % 2 = 0
  | .away, _ => false

namespace Decimal

def countDigits (n : Nat) : Nat := (Nat.toDigits 10 n).length

/-- The nearest binary64 number; `none` past the largest. Beyond `10 ^ ±400` the answer is known
without the power of ten. -/
def toBinary64? (negative : Bool) (d : Decimal) : Option Binary64 :=
  let magnitude : Int := countDigits d.digits + d.exponent
  if d.digits = 0 ∨ magnitude < -400 then some (Binary64.zero negative)
  else if 400 < magnitude then none
  else Binary64.nearest? negative (d.digits * Nat.pow 10 d.exponent.toNat * Binary64.unitsPerOne)
    (Nat.pow 10 (-d.exponent).toNat)

/-- The same value without trailing zeros among its digits. -/
def trim (d : Decimal) : Decimal :=
  let digits := Nat.toDigits 10 d.digits
  let zeros := (digits.reverse.takeWhile (· = '0')).length
  ⟨d.digits / Nat.pow 10 zeros, d.exponent + zeros⟩

/-! ## The shortest decimal of a number -/

/-- The neighbours of `x` among the multiples of `10 ^ exponent`, the nearer one first. -/
def neighbours (tie : Tie) (x : Binary64) (exponent : Int) : List Decimal :=
  let num := x.magnitude * Nat.pow 10 (-exponent).toNat
  let den := Binary64.unitsPerOne * Nat.pow 10 exponent.toNat
  let below := num / den
  let twice := 2 * (num % den)
  if twice < den ∨ (twice = den ∧ tie.goesDown below) then
    [⟨below, exponent⟩, ⟨below + 1, exponent⟩]
  else [⟨below + 1, exponent⟩, ⟨below, exponent⟩]

/-- How many digits the whole part of `x` has; not positive when `x` is below one tenth. -/
def wholeDigits (x : Binary64) : Int :=
  countDigits (x.magnitude * Nat.pow 10 350 / Binary64.unitsPerOne) - 350

/-- The neighbour of `x` among the multiples of `10 ^ exponent` that reads back as `x`, if one
does. -/
def readable? (tie : Tie) (x : Binary64) (exponent : Int) : Option Decimal :=
  (neighbours tie x exponent).find? fun d => toBinary64? x.negative d = some x

/-- The fewest digits that read back as `x`. Seventeen always do. -/
def shortest (tie : Tie) (x : Binary64) : Decimal :=
  if x.mantissa = 0 then ⟨0, 0⟩
  else
    let whole := wholeDigits x
    let found := (List.range' 1 17).findSome? fun (count : Nat) => readable? tie x (whole - count)
    (found.getD ⟨0, 0⟩).trim

/-! ## Layouts -/

/-- Digits and point, without an exponent; a whole number has no point. -/
def positional (d : Decimal) : String :=
  let digits := Nat.toDigits 10 d.digits
  let whole : Int := digits.length + d.exponent
  if 0 ≤ d.exponent then String.ofList (digits ++ List.replicate d.exponent.toNat '0')
  else if 0 < whole then
    String.ofList (digits.take whole.toNat) ++ "." ++ String.ofList (digits.drop whole.toNat)
  else "0." ++ String.ofList (List.replicate (-whole).toNat '0' ++ digits)

/-- One digit before the point, then an exponent with a sign if it is positive. -/
def scientific (d : Decimal) : String :=
  let digits := Nat.toDigits 10 d.digits
  let exponent : Int := digits.length + d.exponent - 1
  let fraction := digits.drop 1
  String.ofList (digits.take 1) ++
    (if fraction.isEmpty then "" else "." ++ String.ofList fraction) ++
    (if 0 < exponent then "e+" else "e") ++ toString exponent

end Decimal

namespace Binary64

def signText (x : Binary64) : String := if x.negative then "-" else ""

/-- Plain text: never an exponent, and no point in a whole number. A tie goes away from zero. -/
def plainText (x : Binary64) : String := x.signText ++ (Decimal.shortest .away x).positional

/-- Text that always shows a point or an exponent: positional from `10 ^ -5` up to below
`10 ^ 16`, scientific outside. A tie goes to the even digit. -/
def markedText (x : Binary64) : String :=
  let d := Decimal.shortest .toEven x
  let exponent : Int := Decimal.countDigits d.digits + d.exponent - 1
  if exponent < -5 ∨ 15 < exponent then x.signText ++ d.scientific
  else x.signText ++ d.positional ++ (if 0 ≤ d.exponent then ".0" else "")

end Binary64
end Sluice
