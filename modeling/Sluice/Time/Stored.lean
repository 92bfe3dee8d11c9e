import Sluice.Time.Rfc3339
import Sluice.Json.Printer

/-!
Times as stored in documents: RFC 3339 text, or a number of seconds, milliseconds, microseconds or
nanoseconds since the epoch. The size of a number tells its unit, as the supported years of the four
do not overlap.
-/
namespace Sluice

/-- Why a stored value is not a time. -/
inductive StoredTimeError where
  | outOfRange (number : String)
  | malformed (text : String)
  | wrongKind (value : Json)

namespace StoredTimeError

def message : StoredTimeError → String
  | .outOfRange number =>
    "failed to parse unix timestamp `" ++ number ++ "`. Supported timestamp ranges " ++
      "from `13 Apr 1972 23:59:55` to `16 Mar 2242 12:56:31`"
  | .malformed text => "failed to parse rfc3339 timestamp '" ++ text ++ "'"
  | .wrongKind value => "expected a timestamp, got " ++ value.render

end StoredTimeError

namespace Moment

/-- The first and the last second that a number can stand for. -/
def firstStoredSecond : Nat := 72057595
def lastStoredSecond : Nat := 8589934591

/-- The units of whole numbers, as how many make a second, coarsest first. -/
def storedUnits : List Nat := [1, 1000, 1000000, 1000000000]

def ofStoredInt (n : Int) : Except StoredTimeError Moment :=
  match storedUnits.find? fun (unit : Nat) =>
      firstStoredSecond * unit ≤ n ∧ n ≤ lastStoredSecond * unit with
  | some unit => .ok (utc (n * (1000000000 / unit : Nat)))
  | none => .error (.outOfRange (toString n))

/-- A binary64 number is taken in one of the three coarser units. Its fraction is scaled to
nanoseconds in binary64 arithmetic, then cut. -/
def ofStoredFloat (x : Binary64) : Except StoredTimeError Moment :=
  match (storedUnits.take 3).find? fun (unit : Nat) =>
      (firstStoredSecond * unit * Binary64.unitsPerOne : Nat) ≤ x.units ∧
        x.units ≤ (lastStoredSecond * unit * Binary64.unitsPerOne : Nat) with
  | some unit =>
    let scale := 1000000000 / unit
    let fraction := (Binary64.nearest? false (x.fractUnits.natAbs * scale) 1).map Binary64.trunc
    .ok (utc (x.trunc * scale + fraction.getD 0))
  | none => .error (.outOfRange x.plainText)

/-- The moment a stored value stands for. -/
def ofStored : Json → Except StoredTimeError Moment
  | .text s =>
    match parse? s with
    | some m => .ok m
    | none => .error (.malformed s)
  | .number (.int n) =>
    if Word.FitsSigned n then ofStoredInt n
    else match Binary64.ofInt? n with
      | some x => ofStoredFloat x
      | none => .error (.outOfRange (toString n))
  | .number (.float x) => ofStoredFloat x
  | other => .error (.wrongKind other)

/-- The moment a stored value stands for, if it is a time. -/
def ofStored? (value : Json) : Option Moment := (ofStored value).toOption

end Moment
end Sluice
