import Sluice.Time.Stored
import Sluice.Text.Lowercase

/-!
Documents and the values in them: how a field is looked up, and how the store orders and equates
values.
-/
namespace Sluice

namespace Document

/-- The value at the end of a path through nested objects. -/
def descend (value : Json) : List String → Option Json
  | [] => some value
  | key :: path => (value.member? key).bind (descend · path)

def present : Json → Option Json
  | .null => none
  | value => some value

/-- The value of a field; null is none. A field with dots in its name is taken as one key if the
document has that key, and else as a path. -/
def lookup (document : Members) (field : String) : Option Json :=
  match Members.get? field document with
  | some value => present value
  | none =>
    match (field.toList.splitOn '.').map String.ofList with
    | [] => none
    | key :: path => do
      let first ← Members.get? key document
      present (← descend first path)

mutual

/-- Whether some text in a value holds `needle`, letter case aside; `needle` is in lower case. -/
def mentions (needle : List Char) : Json → Bool
  | .text s => Text.containsRun needle (Text.lowercase s).toList
  | .list items => itemsMention needle items
  | .object members => membersMention needle members
  | _ => false

def itemsMention (needle : List Char) : List Json → Bool
  | [] => false
  | x :: xs => mentions needle x || itemsMention needle xs

def membersMention (needle : List Char) : List (String × Json) → Bool
  | [] => false
  | (_, x) :: rest => mentions needle x || membersMention needle rest

end

end Document

namespace Json

/-- The order of two values: of numbers, else of times at the millisecond, else of texts. Of other
values only equal ones have an order. -/
def order? (a b : Json) : Option Ordering :=
  match a.binary64?, b.binary64? with
  | some x, some y => some (x.cmp y)
  | _, _ =>
    match Moment.ofStored? a, Moment.ofStored? b with
    | some s, some t => some (compare s.truncateMillis.nanos t.truncateMillis.nanos)
    | _, _ =>
      match a, b with
      | .text s, .text t => some (compare s t)
      | _, _ => if same a b then some .eq else none

/-- Equality as the store sees it. -/
def equals (a b : Json) : Bool := same a b || order? a b == some .eq

end Json
end Sluice
