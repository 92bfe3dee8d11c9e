import Sluice.Text.Blank
import Sluice.Number.Word

/-!
Durations as text: numbers, each followed by a unit, such as `1h 30m`. Reading goes from left to
right, one character at a time, and keeps what it has summed so far; a fraction is allowed where it
is exact. Months and years have fixed lengths.
-/
namespace Sluice.Duration

/-- Why a text is no duration. Places are byte offsets. -/
inductive Malformed where
  | empty
  | numberExpected (place : Nat)
  | invalidCharacter (place : Nat)
  | unitMissing (number : Nat)
  | unknownUnit (name : String)
  | tooLarge
deriving DecidableEq, Repr

namespace Malformed

def message : Malformed → String
  | .empty => "value was empty"
  | .numberExpected place => "expected number at " ++ toString place
  | .invalidCharacter place => "invalid character at " ++ toString place
  | .unitMissing number =>
    "time unit needed, for example " ++ toString number ++ "sec or " ++ toString number ++ "ms"
  | .unknownUnit name =>
    "unknown time unit \"" ++ name ++ "\", supported units: ns, us/µs, ms, sec, min, hours, " ++
      "days, weeks, months, years (and few variations)"
  | .tooLarge =>
    "number is too large or cannot be represented without a lack of precision (values below " ++
      "1ns are not supported)"

end Malformed

/-! ## Units -/

/-- A unit of time. Short units are summed in nanoseconds, the others in seconds. -/
inductive Unit where
  | nanosecond | microsecond | millisecond
  | second | minute | hour | day | week | month | year
deriving DecidableEq, Repr

namespace Unit

def ofName? (name : String) : Option Unit :=
  if name ∈ ["nanos", "nsec", "ns"] then some .nanosecond
  else if name ∈ ["usec", "us", "µs"] then some .microsecond
  else if name ∈ ["millis", "msec", "ms"] then some .millisecond
  else if name ∈ ["seconds", "second", "secs", "sec", "s"] then some .second
  else if name ∈ ["minutes", "minute", "min", "mins", "m"] then some .minute
  else if name ∈ ["hours", "hour", "hr", "hrs", "h"] then some .hour
  else if name ∈ ["days", "day", "d"] then some .day
  else if name ∈ ["weeks", "week", "wk", "wks", "w"] then some .week
  else if name ∈ ["months", "month", "M"] then some .month
  else if name ∈ ["years", "year", "yr", "yrs", "y"] then some .year
  else none

/-- The seconds, or for a short unit the nanoseconds, in one. -/
def size : Unit → Nat
  | .nanosecond => 1
  | .microsecond => 1000
  | .millisecond => 1000000
  | .second => 1
  | .minute => 60
  | .hour => 3600
  | .day => 86400
  | .week => 604800
  | .month => 2630016
  | .year => 31557600

def isShort : Unit → Bool
  | .nanosecond | .microsecond | .millisecond => true
  | _ => false

/-- What a fraction is multiplied by before it must divide evenly, and the nanoseconds that one of
the result is worth. A nanosecond has no fractions. -/
def fractionScale? : Unit → Option (Nat × Nat)
  | .nanosecond => none
  | .microsecond => some (1000, 1)
  | .millisecond => some (1000000, 1)
  | .second => some (1000000000, 1)
  | .minute => some (60000000000, 1)
  | unit => some (unit.size, 1000000000)

end Unit

/-! ## Reading -/

/-- The number `n`, if it is an unsigned word. -/
def word (n : Nat) : Except Malformed Nat :=
  if n < Word.unsignedLimit then .ok n else .error .tooLarge

/-- The total with seconds and nanoseconds added; both parts stay words on the way. -/
def addPart (total seconds nanos : Nat) : Except Malformed Nat := do
  let _ ← word (total % 1000000000 + nanos)
  let sum := total + seconds * 1000000000 + nanos
  let _ ← word (sum / 1000000000)
  return sum

/-- The digits after a point, as a numerator and a power of ten. -/
structure Fraction where
  numerator : Nat
  denominator : Nat
deriving DecidableEq, Repr

/-- The total with one number and its unit added. -/
def addUnit (total number : Nat) (fraction : Option Fraction) (name : List Char) :
    Except Malformed Nat := do
  match Unit.ofName? (String.ofList name) with
  | none => throw (if name = [] then .unitMissing number else .unknownUnit (String.ofList name))
  | some unit =>
    let whole ← word (number * unit.size)
    let total ← if unit.isShort then addPart total 0 whole else addPart total whole 0
    match fraction with
    | none => return total
    | some f =>
      match unit.fractionScale? with
      | none => throw .tooLarge
      | some (scale, worth) =>
        let scaled ← word (f.numerator * scale)
        if scaled % f.denominator ≠ 0 then throw .tooLarge
        else if worth = 1 then addPart total 0 (scaled / f.denominator)
        else addPart total (scaled / f.denominator) 0

/-- What the reader is in the middle of. -/
inductive Phase where
  /-- Looking for a number, since `place`. -/
  | lead (place : Nat)
  | whole (number : Nat)
  /-- Behind the point; `place` follows the last character accepted since. -/
  | fraction (number : Nat) (read : Fraction) (place : Nat)
  | unit (number : Nat) (fraction : Option Fraction) (reversed : List Char)
deriving DecidableEq, Repr

structure Reader where
  total : Nat
  /-- The byte offset of the next character. -/
  place : Nat
  phase : Phase
  /-- Whether a number has been met. -/
  begun : Bool
deriving DecidableEq, Repr

namespace Reader

def start : Reader := ⟨0, 0, .lead 0, false⟩

def isUnitLetter (c : Char) : Bool :=
  ('a' ≤ c && c ≤ 'z') || ('A' ≤ c && c ≤ 'Z') || c = 'µ'

def digitValue (c : Char) : Nat := c.toNat - '0'.toNat

/-- A fraction must have digits. -/
def closeFraction (f : Fraction) (place : Nat) : Except Malformed Fraction :=
  if f.denominator = 1 then .error (.invalidCharacter place) else .ok f

def step (r : Reader) (c : Char) : Except Malformed Reader := do
  let next := r.place + c.utf8Size
  match r.phase with
  | .lead place =>
    if c.isDigit then return { r with place := next, phase := .whole (digitValue c), begun := true }
    else if Text.isBlank c then return { r with place := next }
    else throw (.numberExpected place)
  | .whole number =>
    if c.isDigit then
      let number ← word (number * 10 + digitValue c)
      return { r with place := next, phase := .whole number }
    else if Text.isBlank c then return { r with place := next }
    else if isUnitLetter c then return { r with place := next, phase := .unit number none [c] }
    else if c = '.' then return { r with place := next, phase := .fraction number ⟨0, 1⟩ r.place }
    else throw (.invalidCharacter r.place)
  | .fraction number f place =>
    if c.isDigit then
      let denominator ← word (f.denominator * 10)
      let numerator ← word (f.numerator * 10 + digitValue c)
      return { r with place := next, phase := .fraction number ⟨numerator, denominator⟩ next }
    else if Text.isBlank c then return { r with place := next, phase := .fraction number f next }
    else if isUnitLetter c then
      let f ← closeFraction f place
      return { r with place := next, phase := .unit number (some f) [c] }
    else throw (.invalidCharacter place)
  | .unit number fraction reversed =>
    if c.isDigit then
      let total ← addUnit r.total number fraction reversed.reverse
      return { r with total, place := next, phase := .whole (digitValue c) }
    else if Text.isBlank c then
      let total ← addUnit r.total number fraction reversed.reverse
      return { r with total, place := next, phase := .lead next }
    else if isUnitLetter c then
      return { r with place := next, phase := .unit number fraction (c :: reversed) }
    else throw (.invalidCharacter r.place)

/-- The total in nanoseconds, at the end of the text. -/
def finish (r : Reader) : Except Malformed Nat := do
  match r.phase with
  | .lead _ => if r.begun then return r.total else throw .empty
  | .whole number => addUnit r.total number none []
  | .fraction number f place =>
    let f ← closeFraction f place
    addUnit r.total number (some f) []
  | .unit number fraction reversed => addUnit r.total number fraction reversed.reverse

end Reader

/-- The nanoseconds a text stands for. A bare zero needs no unit. -/
def parse (s : String) : Except Malformed Nat :=
  if s = "0" then .ok 0
  else do (← s.toList.foldlM Reader.step Reader.start).finish

/-! ## Writing -/

/-- A count with its unit; nothing for none. -/
def part (count : Nat) (unit : String) : List String :=
  if count = 0 then [] else [toString count ++ unit]

/-- A count with its unit spelt out, in the plural above one. -/
def namedPart (count : Nat) (unit : String) : List String :=
  part count (if count = 1 then unit else unit ++ "s")

/-- The parts of a duration from years down to nanoseconds, leaving out the empty ones. -/
def format (nanos : Nat) : String :=
  let seconds := nanos / 1000000000
  let below := nanos % 1000000000
  let inYear := seconds % 31557600
  let inMonth := inYear % 2630016
  let inDay := inMonth % 86400
  let parts :=
    namedPart (seconds / 31557600) "year" ++ namedPart (inYear / 2630016) "month" ++
      namedPart (inMonth / 86400) "day" ++ part (inDay / 3600) "h" ++
      part (inDay % 3600 / 60) "m" ++ part (inDay % 60) "s" ++ part (below / 1000000) "ms" ++
      part (below / 1000 % 1000) "us" ++ part (below % 1000) "ns"
  if parts.isEmpty then "0s" else " ".intercalate parts

/-! ## Whole milliseconds -/

/-- Why a text is no number of milliseconds. -/
inductive MillisError where
  | malformed (text : String) (cause : Malformed)
  | overflow (text : String)
deriving DecidableEq

def MillisError.message : MillisError → String
  | .malformed text cause => "'" ++ text ++ "': " ++ cause.message
  | .overflow text => "'" ++ text ++ "' overflows milliseconds"

/-- The whole milliseconds a text stands for; what is below them is dropped. -/
def parseMillis (s : String) : Except MillisError Nat :=
  match parse s with
  | .error cause => .error (.malformed s cause)
  | .ok nanos =>
    let millis := nanos / 1000000
    if millis < Word.signedLimit then .ok millis else .error (.overflow s)

end Sluice.Duration
