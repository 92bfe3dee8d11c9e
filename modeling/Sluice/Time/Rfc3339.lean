import Sluice.Time.Moment

/-!
Moments as RFC 3339 text. Moments whose local year has no four digits, or whose offset is a day or
more, are written as whole seconds since the epoch, which the reader refuses.
-/
namespace Sluice.Rfc3339

/-- The last `width` decimal digits of `n`. -/
def padded (width n : Nat) : List Char :=
  let digits := Nat.toDigits 10 n
  List.replicate (width - digits.length) '0' ++ digits

/-! ## Writing -/

/-- A point and the digits of a part of a second, without trailing zeros; nothing for none. -/
def fractionText (nanos : Nat) : List Char :=
  if nanos = 0 then []
  else '.' :: ((padded 9 nanos).reverse.dropWhile (· = '0')).reverse

def offsetText (minutes : Int) : List Char :=
  if minutes = 0 then ['Z']
  else (if minutes < 0 then '-' else '+') :: padded 2 (minutes.natAbs / 60) ++ ':' ::
    padded 2 (minutes.natAbs % 60)

end Rfc3339

namespace Moment

open Rfc3339

def format (m : Moment) : String :=
  let date := m.localDate
  if 0 ≤ date.year ∧ date.year ≤ 9999 ∧ m.offset.natAbs / 60 ≤ 23 then
    let nanos := m.timeOfDay.toNat
    let seconds := nanos / 1000000000
    String.ofList (padded 4 date.year.toNat ++ '-' :: padded 2 date.month ++ '-' ::
      padded 2 date.day ++ 'T' :: padded 2 (seconds / 3600) ++ ':' ::
      padded 2 (seconds / 60 % 60) ++ ':' :: padded 2 (seconds % 60) ++
      fractionText (nanos % 1000000000) ++ offsetText m.offset)
  else toString m.toSeconds

end Moment

namespace Rfc3339

/-! ## Reading -/

/-- The number written by the first `count` characters, all of them digits, and what follows. -/
def number? : Nat → List Char → Option (Nat × List Char)
  | count, cs =>
    let digits := cs.take count
    if digits.length = count ∧ digits.all Char.isDigit then
      some (Nat.ofDigitChars 10 digits 0, cs.drop count)
    else none

def expect? (c : Char) : List Char → Option (List Char)
  | [] => none
  | d :: cs => if d = c then some cs else none

/-- Any one byte: date and time may be parted by every ASCII character. -/
def anyByte? : List Char → Option (List Char)
  | [] => none
  | c :: cs => if c.toNat < 0x80 then some cs else none

/-- The part of a second, as nanoseconds; digits past the ninth are dropped. -/
def fraction? : List Char → Option (Nat × List Char)
  | '.' :: cs =>
    let digits := cs.takeWhile Char.isDigit
    if digits = [] then none
    else
      let kept := digits.take 9
      let nanos := kept ++ List.replicate (9 - kept.length) '0'
      some (Nat.ofDigitChars 10 nanos 0, cs.dropWhile Char.isDigit)
  | cs => some (0, cs)

/-- The offset in minutes, which ends the text. -/
def offset? : List Char → Option Int
  | ['Z'] | ['z'] => some 0
  | sign :: cs => do
    let (hours, cs) ← number? 2 cs
    let cs ← expect? ':' cs
    let (minutes, cs) ← number? 2 cs
    if cs ≠ [] ∨ 23 < hours ∨ 59 < minutes then none
    else if sign = '+' then some (hours * 60 + minutes)
    else if sign = '-' then some (-(hours * 60 + minutes))
    else none
  | [] => none

/-- Whether the last second of the moment's UTC day is its last second, and the day the last of its
month: the place of a leap second. -/
def isLeapSecondPlace (m : Moment) : Bool :=
  let utc := Moment.utc m.nanos
  let date := utc.localDate
  utc.inYears && utc.timeOfDay / Moment.nanosPerSecond = 86399 &&
    date.day = Calendar.daysInMonth date.year date.month

end Rfc3339

namespace Moment

open Rfc3339

/-- Reads a whole text. Second 60 is the last nanosecond of a leap second's place. -/
def parse? (s : String) : Option Moment := do
  let (year, cs) ← number? 4 s.toList
  let cs ← expect? '-' cs
  let (month, cs) ← number? 2 cs
  let cs ← expect? '-' cs
  let (day, cs) ← number? 2 cs
  let cs ← anyByte? cs
  let (hour, cs) ← number? 2 cs
  let cs ← expect? ':' cs
  let (minute, cs) ← number? 2 cs
  let cs ← expect? ':' cs
  let (second, cs) ← number? 2 cs
  let (fraction, cs) ← fraction? cs
  let offset ← offset? cs
  let date : Calendar.Date := ⟨year, month, day⟩
  if !date.isValid || 23 < hour || 59 < minute || 60 < second then none
  else
    let leap := second = 60
    let (second, fraction) := if leap then (59, 999999999) else (second, fraction)
    let clock : Int := (hour * 60 + minute) * 60 + second
    let wall := (date.toDays - Calendar.epochDay) * nanosPerDay + clock * nanosPerSecond + fraction
    let m : Moment := ⟨wall - offset * nanosPerMinute, offset⟩
    if leap && !isLeapSecondPlace m then none else some m

end Moment
end Sluice
