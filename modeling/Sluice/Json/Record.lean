import Sluice.Json.Basic

/-!
Reading records out of JSON. A record is an object, whose unknown members are ignored, or a list of
its fields in their declared order, which may stop early.
-/
namespace Sluice.Json

/-- The members of a record with the given fields. -/
def record? (fields : List String) : Json → Option Members
  | .object members => some members
  | .list items => if items.length ≤ fields.length then some (fields.zip items) else none
  | _ => none

/-- A field that must be there. -/
def required? {α : Type} (members : Members) (key : String) (read : Json → Option α) : Option α :=
  (Members.get? key members).bind read

/-- A field that may be missing, but not null. -/
def defaulted? {α : Type} (members : Members) (key : String) (default : α)
    (read : Json → Option α) : Option α :=
  match Members.get? key members with
  | none => some default
  | some value => read value

/-- A field for which missing and null are the same. -/
def nullable? {α : Type} (members : Members) (key : String) (read : Json → Option α) :
    Option (Option α) :=
  match Members.get? key members with
  | none | some .null => some none
  | some value => (read value).map some

def listOf? {α : Type} (read : Json → Option α) (j : Json) : Option (List α) :=
  j.list?.bind (·.mapM read)

end Sluice.Json
