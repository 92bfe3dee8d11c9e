import Sluice.Json.Record

/-!
The answers of a store: matching documents, and trees of buckets and values.
-/
namespace Sluice

mutual

/-- The result of one aggregation: a value, or buckets with results of their own. -/
inductive Result where
  | value (value : Json)
  | buckets (items : List Bucket)

inductive Bucket where
  | mk (key : Json) (keyText : Option String) (count : Nat) (sub : List (String × Result))

end

/-- Named results. -/
abbrev Results := List (String × Result)

namespace Bucket

def key : Bucket → Json
  | .mk key _ _ _ => key

def keyText : Bucket → Option String
  | .mk _ keyText _ _ => keyText

/-- How many documents the bucket holds. -/
def count : Bucket → Nat
  | .mk _ _ count _ => count

def sub : Bucket → Results
  | .mk _ _ _ sub => sub

end Bucket

structure Response where
  /-- How many documents match, whether or not they were asked for. -/
  total : Nat
  hits : List Members
  aggregations : Results

/-- The answer of a store that has nothing. -/
def Response.empty : Response := ⟨0, [], []⟩

/-- Why an answer cannot be read. -/
inductive Undecodable where
  | shape
  /-- The total is only a lower bound. -/
  | lowerBound (total : Nat)
deriving DecidableEq, Repr

def Undecodable.message? : Undecodable → Option String
  | .shape => none
  | .lowerBound total =>
    some ("hits.total is a lower bound (" ++ toString total ++ "), not an exact count")

/-! ## Results -/

namespace Result

/-- The members of a bucket that are not results of its aggregations. -/
def bucketKeys : List String := ["key", "key_as_string", "doc_count"]

mutual

/-- A value wins over buckets. -/
def ofJson? : Json → Option Result
  | .object members =>
    match Members.get? "value" members with
    | some v => some (.value v)
    | none => (bucketsIn? members).map .buckets
  | .list [v] => some (.value v)
  | _ => none

def bucketsIn? : List (String × Json) → Option (List Bucket)
  | [] => none
  | (k, .list items) :: rest => if k = "buckets" then bucketsOf? items else bucketsIn? rest
  | (k, _) :: rest => if k = "buckets" then none else bucketsIn? rest

def bucketsOf? : List Json → Option (List Bucket)
  | [] => some []
  | .object members :: rest => do
    let key := (Members.get? "key" members).getD .null
    let keyText ← Json.nullable? members "key_as_string" Json.text?
    let count ← Json.required? members "doc_count" Json.unsigned?
    let sub ← subOf? members
    return .mk key keyText count sub :: (← bucketsOf? rest)
  | _ :: _ => none

/-- Every further member of a bucket is a result. -/
def subOf? : List (String × Json) → Option (List (String × Result))
  | [] => some []
  | (k, v) :: rest =>
    if k ∈ bucketKeys then subOf? rest
    else do return (k, ← ofJson? v) :: (← subOf? rest)

end

def named? (j : Json) : Option Results := do
  (← j.object?).mapM fun (name, result) => do return (name, ← ofJson? result)

end Result

/-! ## Hits -/

namespace Response

/-- The total is a count, or a count with its relation to the truth. -/
def totalOf (j : Json) : Except Undecodable Nat :=
  match j.unsigned? with
  | some n => .ok n
  | none =>
    let read : Option (Nat × Option String) := do
      let members ← j.record? ["value", "relation"]
      let value ← Json.required? members "value" Json.unsigned?
      return (value, ← Json.nullable? members "relation" Json.text?)
    match read with
    | none => .error .shape
    | some (n, some "gte") => .error (.lowerBound n)
    | some (n, _) => .ok n

def hitOf? (j : Json) : Option Members := do
  Json.defaulted? (← j.record? ["_source"]) "_source" [] Json.object?

def orShape {α : Type} : Option α → Except Undecodable α
  | some a => .ok a
  | none => .error .shape

/-- The total and the documents. They are read in the order in which they stand. -/
def hitsOf (j : Json) : Except Undecodable (Nat × List Members) := do
  let members ← orShape (j.record? ["total", "hits"])
  let total := match Members.get? "total" members with
    | none => .ok 0
    | some total => totalOf total
  let hits := orShape (Json.defaulted? members "hits" [] (Json.listOf? hitOf?))
  if j.isList then
    let total ← total
    return (total, ← hits)
  else
    let hits ← hits
    return (← total, hits)

def ofJson (j : Json) : Except Undecodable Response := do
  let members ← orShape (j.record? ["hits", "aggregations"])
  let hits := match Members.get? "hits" members with
    | none => .ok (0, [])
    | some hits => hitsOf hits
  let aggregations := orShape (Json.defaulted? members "aggregations" [] Result.named?)
  if j.isList then
    let (total, hits) ← hits
    return ⟨total, hits, ← aggregations⟩
  else
    let aggregations ← aggregations
    let (total, hits) ← hits
    return ⟨total, hits, aggregations⟩

end Response
end Sluice
