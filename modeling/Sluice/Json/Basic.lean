import Sluice.Number.Binary64
import Sluice.Number.Word

/-!
JSON values. Whole numbers and binary64 numbers are different values, and the members of an object
stand in ascending order of their keys, each key once.
-/
namespace Sluice

/-- A JSON number: a whole one that fits 64 bits, signed or unsigned, or a binary64 one. -/
inductive Number where
  | int (n : Int)
  | float (x : Binary64)
deriving DecidableEq

inductive Json where
  | null
  | bool (b : Bool)
  | number (n : Number)
  | text (s : String)
  | list (items : List Json)
  | object (members : List (String × Json))

/-- The members of an object, in ascending order of their keys. -/
abbrev Members := List (String × Json)

namespace Members

/-- The members with `key` bound to `value`, whether or not it was bound before. -/
def insert (key : String) (value : Json) : Members → Members
  | [] => [(key, value)]
  | (k, v) :: rest =>
    if key < k then (key, value) :: (k, v) :: rest
    else if key = k then (key, value) :: rest
    else (k, v) :: insert key value rest

def get? (key : String) : Members → Option Json
  | [] => none
  | (k, v) :: rest => if k = key then some v else get? key rest

def erase (key : String) : Members → Members
  | [] => []
  | (k, v) :: rest => if k = key then rest else (k, v) :: erase key rest

def contains (key : String) (members : Members) : Bool := (get? key members).isSome

def keys (members : Members) : List String := members.map Prod.fst

/-- The members of a list of bindings in any order; the last binding of a key holds. -/
def ofList (bindings : List (String × Json)) : Members :=
  bindings.foldl (fun members (k, v) => insert k v members) []

@[simp] theorem get?_nil (key : String) : get? key [] = none := rfl

theorem get?_insert_self (key : String) (value : Json) (members : Members) :
    get? key (insert key value members) = some value := by
  induction members with
  | nil => simp [insert, get?]
  | cons entry rest ih =>
    obtain ⟨k, v⟩ := entry
    simp only [insert]
    split
    · simp [get?]
    · split
      · simp [get?]
      · rename_i hne
        simp [get?, Ne.symm hne, ih]

theorem get?_insert_of_ne {key other : String} (value : Json) (members : Members)
    (h : other ≠ key) : get? other (insert key value members) = get? other members := by
  induction members with
  | nil => simp [insert, get?, Ne.symm h]
  | cons entry rest ih =>
    obtain ⟨k, v⟩ := entry
    simp only [insert]
    split
    · simp [get?, Ne.symm h]
    · split
      · rename_i heq
        subst heq
        simp [get?, Ne.symm h]
      · simp [get?, ih]

end Members

namespace Json

/-- An object of bindings given in any order. -/
def ofBindings (bindings : List (String × Json)) : Json := .object (Members.ofList bindings)

def int (n : Int) : Json := .number (.int n)

def nat (n : Nat) : Json := .number (.int n)

def texts (items : List String) : Json := .list (items.map .text)

def optional {α : Type} (write : α → Json) : Option α → Json
  | none => .null
  | some a => write a

/-! ## Views -/

def isNull : Json → Bool
  | .null => true
  | _ => false

def isList : Json → Bool
  | .list _ => true
  | _ => false

def text? : Json → Option String
  | .text s => some s
  | _ => none

def bool? : Json → Option Bool
  | .bool b => some b
  | _ => none

def list? : Json → Option (List Json)
  | .list items => some items
  | _ => none

def object? : Json → Option Members
  | .object members => some members
  | _ => none

/-- The member of an object; any other value has none. -/
def member? (key : String) : Json → Option Json
  | .object members => Members.get? key members
  | _ => none

/-- A whole number that is a signed 64-bit word. -/
def signed? : Json → Option Int
  | .number (.int n) => if Word.FitsSigned n then some n else none
  | _ => none

/-- A whole number that is an unsigned 64-bit word. -/
def unsigned? : Json → Option Nat
  | .number (.int n) => if Word.FitsUnsigned n then some n.toNat else none
  | _ => none

/-- Any number as a binary64 one, a whole number rounded. -/
def binary64? : Json → Option Binary64
  | .number (.int n) => Binary64.ofInt? n
  | .number (.float x) => some x
  | _ => none

/-! ## Equality -/

/-- Whole numbers equal whole numbers only, and the two zeros of binary64 are one number. -/
def Number.same : Number → Number → Bool
  | .int m, .int n => m = n
  | .float x, .float y => x.units = y.units
  | _, _ => false

mutual

/-- Equality of values. It is coarser than identity on the two binary64 zeros only. -/
def same : Json → Json → Bool
  | .null, .null => true
  | .bool a, .bool b => a = b
  | .number m, .number n => Number.same m n
  | .text s, .text t => s = t
  | .list xs, .list ys => sameItems xs ys
  | .object fs, .object gs => sameMembers fs gs
  | _, _ => false

def sameItems : List Json → List Json → Bool
  | [], [] => true
  | x :: xs, y :: ys => same x y && sameItems xs ys
  | _, _ => false

def sameMembers : List (String × Json) → List (String × Json) → Bool
  | [], [] => true
  | (j, x) :: fs, (k, y) :: gs => j = k && same x y && sameMembers fs gs
  | _, _ => false

end

end Json
end Sluice
