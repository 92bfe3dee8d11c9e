/-!
The proleptic Gregorian calendar. Days are counted from 1 January of year 0, and months from its
January, so that both go on without a break before year 0.
-/
namespace Sluice.Calendar

/-- A day of the calendar; months and days count from 1. -/
structure Date where
  year : Int
  month : Nat
  day : Nat
deriving DecidableEq, Repr

def isLeap (year : Int) : Bool := year % 4 = 0 && (year % 100 ≠ 0 || year % 400 = 0)

/-- The days of a month counted from 1; of a number that is no month, none. -/
def daysInMonth (year : Int) (month : Nat) : Nat :=
  match month with
  | 2 => if isLeap year then 29 else 28
  | 4 | 6 | 9 | 11 => 30
  | 1 | 3 | 5 | 7 | 8 | 10 | 12 => 31
  | _ => 0

/-- Days from the start of year 0 to the start of `year`. -/
def daysBeforeYear (year : Int) : Int :=
  365 * year + (year + 3) / 4 - (year + 99) / 100 + (year + 399) / 400

/-- Days from the start of a year to the start of one of its months. -/
def daysBeforeMonth (year : Int) (month : Nat) : Nat :=
  (List.range' 1 (month - 1)).foldr (daysInMonth year · + ·) 0

/-- The day number of a date. -/
def Date.toDays (d : Date) : Int :=
  daysBeforeYear d.year + daysBeforeMonth d.year d.month + (d.day - 1)

/-- The year a day lies in. The mean length of a year gives it up to one. -/
def yearOfDay (days : Int) : Int :=
  let guess := 400 * days / 146097
  if days < daysBeforeYear guess then guess - 1
  else if daysBeforeYear (guess + 1) ≤ days then guess + 1
  else guess

/-- The month and the day of the month, `rest` days after the start of `month`. -/
def splitMonths (year : Int) (rest : Nat) : Nat → Nat → Nat × Nat
  | 0, month => (month, rest + 1)
  | left + 1, month =>
    if rest < daysInMonth year month then (month, rest + 1)
    else splitMonths year (rest - daysInMonth year month) left (month + 1)

/-- The date of a day number. -/
def Date.ofDays (days : Int) : Date :=
  let year := yearOfDay days
  let (month, day) := splitMonths year (days - daysBeforeYear year).toNat 11 1
  ⟨year, month, day⟩

def Date.isValid (d : Date) : Bool :=
  1 ≤ d.month && d.month ≤ 12 && 1 ≤ d.day && d.day ≤ daysInMonth d.year d.month

/-- Months from the start of year 0 to the month of a date. -/
def Date.toMonths (d : Date) : Int := d.year * 12 + (d.month - 1)

/-- The first day of a month counted from the start of year 0. -/
def Date.firstOfMonth (months : Int) : Date := ⟨months / 12, (months % 12).toNat + 1, 1⟩

/-- The day number of 1 January 1970. -/
def epochDay : Int := 719528

end Sluice.Calendar
