import Sluice.Json.Basic
import Sluice.Number.Decimal

/-!
Reading JSON text, one character at a time. The reader holds the containers still open, what may
stand next, and the word or quoted text it is in the middle of. Of a repeated key the last value
holds.
-/
namespace Sluice.Json

/-! ## Numbers -/

/-- The digits at the head of a text, and what follows them. -/
def takeDigits (cs : List Char) : List Char × List Char := cs.span Char.isDigit

def natOfDigits (digits : List Char) : Nat := Nat.ofDigitChars 10 digits 0

/-- The power of ten after the mark: a sign if any, and digits. -/
def exponent? : List Char → Option Int
  | '-' :: digits =>
    if digits ≠ [] ∧ digits.all Char.isDigit then some (-(natOfDigits digits)) else none
  | '+' :: digits =>
    if digits ≠ [] ∧ digits.all Char.isDigit then some (natOfDigits digits) else none
  | digits => if digits ≠ [] ∧ digits.all Char.isDigit then some (natOfDigits digits) else none

/-- A number without a point or an exponent, and not a negative zero, is whole if it fits 64 bits;
any other is a binary64 number, refused past the largest. -/
def unsignedNumber? (negative : Bool) (cs : List Char) : Option Number :=
  let (whole, rest) := takeDigits cs
  if whole = [] ∨ (whole.head? = some '0' ∧ whole.length ≠ 1) then none
  else
    let float (fraction : List Char) (exponent : Int) : Option Number :=
      (Decimal.toBinary64? negative
        ⟨natOfDigits (whole ++ fraction), exponent - fraction.length⟩).map .float
    match rest with
    | [] =>
      let n : Int := if negative then -(natOfDigits whole) else natOfDigits whole
      if Word.FitsUnsigned n ∧ ¬negative ∨ Word.FitsSigned n ∧ n < 0 then some (.int n)
      else float [] 0
    | '.' :: rest =>
      let (fraction, rest) := takeDigits rest
      if fraction = [] then none
      else match rest with
        | [] => float fraction 0
        | mark :: rest =>
          if mark = 'e' ∨ mark = 'E' then (exponent? rest).bind (float fraction) else none
    | mark :: rest => if mark = 'e' ∨ mark = 'E' then (exponent? rest).bind (float []) else none

def number? : List Char → Option Number
  | '-' :: cs => unsignedNumber? true cs
  | cs => unsignedNumber? false cs

/-- A value written without quotes or brackets. -/
def word? (cs : List Char) : Option Json :=
  match String.ofList cs with
  | "null" => some .null
  | "true" => some (.bool true)
  | "false" => some (.bool false)
  | _ => (number? cs).map .number

/-! ## The reader -/

/-- A container with the part of it read so far. -/
inductive Frame where
  | list (reversed : List Json)
  | object (members : Members) (key : String)

/-- What may stand next, outside words and quoted texts. -/
inductive Want where
  | value
  | firstItem
  | nextItem (reversed : List Json)
  | firstKey
  | key (members : Members)
  | colon (members : Members) (key : String)
  | nextMember (members : Members)
  | nothing (whole : Json)

/-- The word or quoted text being read, its characters last first. -/
inductive Lexeme where
  | none
  | word (reversed : List Char)
  | quoted (reversed : List Char)
  | escape (reversed : List Char)
  | unicode (reversed : List Char) (high : Option Nat) (left value : Nat)
  | pairSlash (reversed : List Char) (high : Nat)
  | pairMark (reversed : List Char) (high : Nat)

structure Reader where
  stack : List Frame
  want : Want
  lexeme : Lexeme

/-- How many containers may be open at once. -/
def maxDepth : Nat := 127

namespace Reader

def start : Reader := ⟨[], .value, .none⟩

/-- The reader after a value is complete. -/
def complete (value : Json) : List Frame → Reader
  | [] => ⟨[], .nothing value, .none⟩
  | .list reversed :: stack => ⟨stack, .nextItem (value :: reversed), .none⟩
  | .object members key :: stack => ⟨stack, .nextMember (members.insert key value), .none⟩

/-- The reader after a quoted text, which is a key or a value. -/
def completeText (r : Reader) (s : String) : Option Reader :=
  match r.want with
  | .value | .firstItem => some (complete (.text s) r.stack)
  | .firstKey => some ⟨r.stack, .colon [] s, .none⟩
  | .key members => some ⟨r.stack, .colon members s, .none⟩
  | _ => none

def isBlank (c : Char) : Bool := c = ' ' || c = '\n' || c = '\t' || c = '\r'

/-- The stack once a value may start here, with the container it starts in. -/
def stackForValue? (r : Reader) : Option (List Frame) :=
  match r.want with
  | .value => some r.stack
  | .firstItem => some (.list [] :: r.stack)
  | _ => none

/-- A character outside words and quoted texts. -/
def between (r : Reader) (c : Char) : Option Reader :=
  if isBlank c then some r
  else match c with
    | '"' =>
      match r.want with
      | .value | .firstKey | .key _ => some { r with lexeme := .quoted [] }
      | .firstItem => some ⟨.list [] :: r.stack, .value, .quoted []⟩
      | _ => none
    | '[' => do
      let stack ← r.stackForValue?
      if maxDepth ≤ stack.length then none else some ⟨stack, .firstItem, .none⟩
    | '\x7b' => do
      let stack ← r.stackForValue?
      if maxDepth ≤ stack.length then none else some ⟨stack, .firstKey, .none⟩
    | ']' =>
      match r.want with
      | .firstItem => some (complete (.list []) r.stack)
      | .nextItem reversed => some (complete (.list reversed.reverse) r.stack)
      | _ => none
    | '\x7d' =>
      match r.want with
      | .firstKey => some (complete (.object []) r.stack)
      | .nextMember members => some (complete (.object members) r.stack)
      | _ => none
    | ',' =>
      match r.want with
      | .nextItem reversed => some ⟨.list reversed :: r.stack, .value, .none⟩
      | .nextMember members => some ⟨r.stack, .key members, .none⟩
      | _ => none
    | ':' =>
      match r.want with
      | .colon members key => some ⟨.object members key :: r.stack, .value, .none⟩
      | _ => none
    | _ => do
      let stack ← r.stackForValue?
      some ⟨stack, .value, .word [c]⟩

/-- Whether a word ends before `c`. -/
def endsWord (c : Char) : Bool :=
  isBlank c || c = '"' || c = '[' || c = ']' || c = '\x7b' || c = '\x7d' || c = ',' || c = ':'

def flushWord (r : Reader) (reversed : List Char) : Option Reader :=
  (word? reversed.reverse).map (complete · r.stack)

def hexValue? (c : Char) : Option Nat :=
  if '0' ≤ c ∧ c ≤ '9' then some (c.toNat - '0'.toNat)
  else if 'a' ≤ c ∧ c ≤ 'f' then some (c.toNat - 'a'.toNat + 10)
  else if 'A' ≤ c ∧ c ≤ 'F' then some (c.toNat - 'A'.toNat + 10)
  else none

/-- What a complete four-digit escape adds: a character, or the first half of a pair, which must be
followed by the second. -/
def unicodeEscape (reversed : List Char) (high : Option Nat) (unit : Nat) : Option Lexeme :=
  let isHigh := 0xD800 ≤ unit ∧ unit < 0xDC00
  let isLow := 0xDC00 ≤ unit ∧ unit < 0xE000
  match high with
  | some first =>
    if isLow then
      some (.quoted (Char.ofNat (0x10000 + (first - 0xD800) * 0x400 + (unit - 0xDC00)) :: reversed))
    else none
  | none =>
    if isHigh then some (.pairSlash reversed unit)
    else if isLow then none
    else some (.quoted (Char.ofNat unit :: reversed))

def simpleEscape? (c : Char) : Option Char :=
  match c with
  | '"' => some '"'
  | '\\' => some '\\'
  | '/' => some '/'
  | 'b' => some '\x08'
  | 'f' => some '\x0c'
  | 'n' => some '\n'
  | 'r' => some '\r'
  | 't' => some '\t'
  | _ => none

def step (r : Reader) (c : Char) : Option Reader :=
  match r.lexeme with
  | .none => r.between c
  | .word reversed =>
    if endsWord c then (r.flushWord reversed).bind (·.between c)
    else some { r with lexeme := .word (c :: reversed) }
  | .quoted reversed =>
    if c = '"' then r.completeText (String.ofList reversed.reverse)
    else if c = '\\' then some { r with lexeme := .escape reversed }
    else if c.toNat < 0x20 then none
    else some { r with lexeme := .quoted (c :: reversed) }
  | .escape reversed =>
    if c = 'u' then some { r with lexeme := .unicode reversed none 4 0 }
    else (simpleEscape? c).map fun e => { r with lexeme := .quoted (e :: reversed) }
  | .unicode reversed high left value => do
    let digit ← hexValue? c
    let value := value * 16 + digit
    if left ≤ 1 then
      let lexeme ← unicodeEscape reversed high value
      some { r with lexeme }
    else some { r with lexeme := .unicode reversed high (left - 1) value }
  | .pairSlash reversed high =>
    if c = '\\' then some { r with lexeme := .pairMark reversed high } else none
  | .pairMark reversed high =>
    if c = 'u' then some { r with lexeme := .unicode reversed (some high) 4 0 } else none

def finish (r : Reader) : Option Json := do
  let r ← match r.lexeme with
    | .none => some r
    | .word reversed => r.flushWord reversed
    | _ => none
  match r.want with
  | .nothing whole => some whole
  | _ => none

end Reader

/-- The value a whole text denotes. -/
def parse? (s : String) : Option Json :=
  (s.toList.foldlM Reader.step Reader.start).bind Reader.finish

end Sluice.Json
