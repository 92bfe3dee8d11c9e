import Sluice.Fault
import Sluice.Store.Condition
import Sluice.Store.Aggregation

/-!
A store that keeps its documents in memory and answers the query language itself.
-/
namespace Sluice

/-- A search as a store receives it. -/
structure SearchRequest where
  indices : List String
  body : Json

structure MemoryStore where
  /-- The documents of each index in the order of insertion, by ascending index name. -/
  indices : List (String × List Members)
  /-- The largest `from + size` of a search. -/
  maxResultWindow : Nat

namespace MemoryStore

def defaultResultWindow : Nat := 10000

/-- How many documents a search returns unless told otherwise. -/
def defaultSize : Nat := 10

def empty (maxResultWindow : Nat) : MemoryStore := ⟨[], maxResultWindow⟩

/-! ## Indices -/

/-- Appends documents to an index, which need not exist before. -/
def insertInto (index : String) (documents : List Members) :
    List (String × List Members) → List (String × List Members)
  | [] => [(index, documents)]
  | (name, held) :: rest =>
    if index < name then (index, documents) :: (name, held) :: rest
    else if index = name then (name, held ++ documents) :: rest
    else (name, held) :: insertInto index documents rest

def insert (store : MemoryStore) (index : String) (documents : List Members) : MemoryStore :=
  { store with indices := insertInto index documents store.indices }

/-- The indices a pattern names: by a glob if it has a star, which may find none, or one by name. -/
def resolvePattern (store : MemoryStore) (pattern : String) : Except Rejection (List String) :=
  let names := store.indices.map Prod.fst
  if pattern.contains '*' then .ok (names.filter (Text.glob pattern ·))
  else if names.contains pattern then .ok [pattern]
  else .error (.noSuchIndex pattern)

/-- The indices that patterns name, each once. A pattern may list several, parted by commas. -/
def resolve (store : MemoryStore) (patterns : List String) : Except Rejection (List String) := do
  let patterns := patterns.flatMap fun p => (p.toList.splitOn ',').map String.ofList
  return (← patterns.mapM store.resolvePattern).flatten.eraseDups

/-- The documents of indices, one index after the other. -/
def documentsOf (store : MemoryStore) (names : List String) : List Members :=
  names.flatMap fun name => (store.indices.lookup name).getD []

/-! ## Sorting -/

/-- The field to sort by, and whether the order descends. -/
def readSort (sort : Json) : Except Rejection (String × Bool) :=
  let sort := match sort with
    | .list [only] => only
    | other => other
  match sort with
  | .object ((field, options) :: _) =>
    let order := ((options.member? "order").bind Json.text?).or options.text?
    .ok (field, order = some "desc")
  | _ => .error (.fieldExpected sort)

/-- Whether a document with value `a` goes before one with value `b`. Documents without a value come
last in either direction; values without an order are equal. -/
def goesBefore (descending : Bool) (a b : Option Json) : Bool :=
  match a, b with
  | some a, some b => (a.order? b).getD .eq == if descending then .gt else .lt
  | some _, none => true
  | none, _ => false

/-- Moves a document left along the sorted ones, which are held last first, as far as it goes before
its neighbour. -/
def insertSorted (descending : Bool) (x : Option Json × Members) :
    List (Option Json × Members) → List (Option Json × Members)
  | [] => [x]
  | y :: rest =>
    match goesBefore descending x.1 y.1 with
    | true => y :: insertSorted descending x rest
    | false => x :: y :: rest

/-- The documents by a field. Documents that no order parts stay as they were. -/
def sortBy (field : String) (descending : Bool) (documents : List Members) : List Members :=
  let keyed := documents.map fun document => (Document.lookup document field, document)
  (keyed.foldl (fun sorted x => insertSorted descending x sorted) []).reverse.map Prod.snd

/-! ## Searching -/

def numberUnder (key : String) (default : Nat) (body : Json) : Nat :=
  ((body.member? key).bind Json.unsigned?).getD default

/-- The documents that meet a condition. -/
def matching (condition : Condition) : List Members → Except Rejection (List Members)
  | [] => .ok []
  | document :: rest => do
    let holds ← condition.holds document
    let rest ← matching condition rest
    return if holds then document :: rest else rest

/-- The matching documents in order, the part of them asked for, and the aggregations over all of
them, as JSON. -/
def evaluate (store : MemoryStore) (request : SearchRequest) :
    Except Rejection (List Members × List Members × Option Members) := do
  let body := request.body
  let names ← store.resolve request.indices
  let start := numberUnder "from" 0 body
  let size := numberUnder "size" defaultSize body
  let asked := Word.wrapUnsigned (start + size)
  if store.maxResultWindow < asked then throw (.windowTooLarge store.maxResultWindow asked)
  let documents := store.documentsOf names
  let matched ← match body.member? "query" with
    | some query => matching (Condition.ofJson query) documents
    | none => pure documents
  let sorted ← match body.member? "sort" with
    | some sort => do
      let (field, descending) ← readSort sort
      pure (sortBy field descending matched)
    | none => pure matched
  let aggregations := ((body.member? "aggregations").or (body.member? "aggs")).bind Json.object?
  let results ← aggregations.mapM fun specs =>
    Aggregation.evaluateAll (Aggregation.ofMembers specs) sorted
  return (sorted, (sorted.drop start).take size, results)

def search (store : MemoryStore) (request : SearchRequest) : Except StoreError Response :=
  match store.evaluate request with
  | .error rejection => .error (.refused rejection.status rejection.payload.render)
  | .ok (matched, hits, results) =>
    match (results.map Json.object).elim (some []) Result.named? with
    | some aggregations => .ok ⟨matched.length, hits, aggregations⟩
    | none => .error (.undecodable .shape)

end MemoryStore
end Sluice
