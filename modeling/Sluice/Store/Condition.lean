import Sluice.Document
import Sluice.Store.Rejection
import Sluice.Text.Glob

/-!
The store's query language: reading clauses, and checking documents against them. A clause that
makes no sense is found out only when a document is checked against it.
-/
namespace Sluice

/-- What a clause asks of a document. -/
inductive Condition where
  | constant (holds : Bool)
  /-- All required, none excluded, and at least `minimum` of the optional ones if there are any. -/
  | combination (required excluded optional : List Condition) (minimum : Nat)
  | term (field : String) (value : Json)
  | terms (field : String) (values : List Json)
  | range (field : String) (bounds : Option Members)
  | existence (field : String)
  | wildcard (field pattern : String)
  | phrase (needle : String)
  | rejected (reason : Rejection)

namespace Condition

/-! ## Reading -/

/-- A condition on the one field of a leaf clause, which is its first. -/
def onField (read : String → Json → Condition) (body : Json) : Condition :=
  match body with
  | .object ((field, value) :: _) => read field value
  | _ => .rejected (.fieldExpected body)

/-- The expected value, which may stand in an object under `value`. -/
def expected (value : Json) : Json := (value.member? "value").getD value

/-- The leaf clauses: those without clauses inside. -/
def leaf (kind : String) (body : Json) : Condition :=
  match kind with
  | "match_all" => .constant true
  | "match_none" => .constant false
  | "term" => onField (fun field value => .term field (expected value)) body
  | "terms" =>
    onField (fun field value =>
      match value with
      | .list values => .terms field values
      | _ => .rejected (.termsNotList field)) body
  | "range" => onField (fun field bounds => .range field bounds.object?) body
  | "exists" =>
    match (body.member? "field").bind Json.text? with
    | some field => .existence field
    | none => .rejected .existsWithoutField
  | "wildcard" =>
    onField (fun field pattern =>
      match expected pattern with
      | .text pattern => .wildcard field pattern
      | _ => .rejected (.patternNotText field)) body
  | "multi_match" =>
    match (body.member? "query").bind Json.text? with
    | some query => .phrase (Text.lowercase query)
    | none => .rejected .phraseNotText
  | _ => .rejected (.unknownQuery kind)

mutual

/-- Reads a clause, which is the first member of an object. -/
def ofJson : Json → Condition
  | .object ((kind, body) :: _) => ofBody kind body
  | clause => .rejected (.malformedClause clause)

def ofBody (kind : String) : Json → Condition
  | .object members =>
    if kind = "filtered" then (inner? "filter" members).getD (.constant true)
    else if kind = "bool" then
      let must := listUnder "must" members
      let filter := listUnder "filter" members
      let minimum := ((Members.get? "minimum_should_match" members).bind Json.unsigned?).getD
        (if must.isEmpty && filter.isEmpty then 1 else 0)
      .combination (must ++ filter) (listUnder "must_not" members) (listUnder "should" members)
        minimum
    else leaf kind (.object members)
  | body => if kind = "filtered" ∨ kind = "bool" then .constant true else leaf kind body

/-- The clause under a key, if the key is there. -/
def inner? (key : String) : List (String × Json) → Option Condition
  | [] => none
  | (k, clause) :: rest => if k = key then some (ofJson clause) else inner? key rest

/-- The clauses under a key: a list of them, or one alone. Any other value is no clause. -/
def listUnder (key : String) : List (String × Json) → List Condition
  | [] => []
  | (k, .list clauses) :: rest => if k = key then ofItems clauses else listUnder key rest
  | (k, .object ((kind, body) :: more)) :: rest =>
    if k = key then [ofJson (.object ((kind, body) :: more))] else listUnder key rest
  | (k, .object []) :: rest =>
    if k = key then [ofJson (.object [])] else listUnder key rest
  | (k, _) :: rest => if k = key then [] else listUnder key rest

def ofItems : List Json → List Condition
  | [] => []
  | clause :: rest => ofJson clause :: ofItems rest

end

/-! ## Checking -/

/-- Whether a value lies on the right side of one bound. Unknown bounds do not bind. -/
def withinBound (value : Json) (bound : String × Json) : Bool :=
  let order := value.order? bound.2
  match bound.1 with
  | "gte" => order == some .gt || order == some .eq
  | "gt" => order == some .gt
  | "lte" => order == some .lt || order == some .eq
  | "lt" => order == some .lt
  | _ => true

mutual

/-- Whether a document meets a condition. -/
def holds (document : Members) : Condition → Except Rejection Bool
  | .constant b => .ok b
  | .combination required excluded optional minimum => do
    if ← allHold document required then
      if ← noneHolds document excluded then
        if optional.isEmpty then return true
        else return minimum ≤ (← countHolding document optional)
      else return false
    else return false
  | .term field value => .ok ((Document.lookup document field).any (·.equals value))
  | .terms field values =>
    .ok ((Document.lookup document field).any fun value => values.any (value.equals ·))
  | .range field bounds =>
    match Document.lookup document field, bounds with
    | none, _ => .ok false
    | some _, none => .error (.boundsExpected field)
    | some value, some bounds => .ok (bounds.all (withinBound value))
  | .existence field => .ok (Document.lookup document field).isSome
  | .wildcard field pattern =>
    .ok ((Document.lookup document field).any fun value => Text.glob pattern value.plainText)
  | .phrase needle => .ok (Document.membersMention needle.toList document)
  | .rejected reason => .error reason

/-- Whether all hold. The first that does not settles it. -/
def allHold (document : Members) : List Condition → Except Rejection Bool
  | [] => .ok true
  | c :: rest => do if ← holds document c then allHold document rest else return false

/-- Whether none holds. The first that does settles it. -/
def noneHolds (document : Members) : List Condition → Except Rejection Bool
  | [] => .ok true
  | c :: rest => do if ← holds document c then return false else noneHolds document rest

def countHolding (document : Members) : List Condition → Except Rejection Nat
  | [] => .ok 0
  | c :: rest => do
    let first ← holds document c
    return (if first then 1 else 0) + (← countHolding document rest)

end

end Condition
end Sluice
