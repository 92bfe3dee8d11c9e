import Sluice.Document
import Sluice.Store.Rejection

/-!
The store's aggregations: reading them, and computing them over a list of documents. Results are
JSON, in which a bucket holds the results of its own aggregations beside its key and its count.
-/
namespace Sluice

/-- What is computed of the values of a field. -/
inductive Metric where
  | valueCount | cardinality | sum | avg | min | max
deriving DecidableEq, Repr

def Metric.ofName? : String → Option Metric
  | "value_count" => some .valueCount
  | "cardinality" => some .cardinality
  | "sum" => some .sum
  | "avg" => some .avg
  | "min" => some .min
  | "max" => some .max
  | _ => none

/-- An aggregation; `rejected` stands for one that cannot be computed, over any documents. -/
inductive Aggregation where
  /-- One bucket per value of a field, the largest first. -/
  | terms (field : String) (size : Nat) (sub : List (String × Aggregation))
  /-- Buckets of `width` milliseconds, starting `offset` after a multiple of it. -/
  | histogram (field : String) (width offset minimum : Nat) (sub : List (String × Aggregation))
  | metric (kind : Metric) (field : String)
  | rejected (reason : Rejection)

namespace Aggregation

/-! ## Reading -/

/-- How many buckets a terms aggregation keeps unless told otherwise. -/
def defaultSize : Nat := 10

def withField (body : Json) (read : String → Aggregation) : Aggregation :=
  match (body.member? "field").bind Json.text? with
  | some field => read field
  | none => .rejected (.aggregationWithoutField body)

def readTerms (body : Json) (sub : List (String × Aggregation)) : Aggregation :=
  withField body fun field =>
    .terms field (((body.member? "size").bind Json.unsigned?).getD defaultSize) sub

def readHistogram (body : Json) (sub : List (String × Aggregation)) : Aggregation :=
  withField body fun field =>
    match body.member? "calendar_interval", (body.member? "fixed_interval").bind Json.text? with
    | some _, _ => .rejected .calendarInterval
    | none, none => .rejected .fixedIntervalExpected
    | none, some interval =>
      match Duration.parseMillis interval with
      | .error cause => .rejected (.intervalMalformed cause)
      | .ok 0 => .rejected .intervalNotPositive
      | .ok width =>
        let minimum := ((body.member? "min_doc_count").bind Json.unsigned?).getD 0
        match (body.member? "offset").bind Json.text? with
        | none => .histogram field width 0 minimum sub
        | some offset =>
          match Duration.parseMillis offset with
          | .error cause => .rejected (.intervalMalformed cause)
          | .ok offset => .histogram field width offset minimum sub

/-- A metric is named by the first member that is not a list of nested aggregations. -/
def readMetric (name : String) (spec : Members) : Aggregation :=
  match spec.find? fun (kind, _) => kind ≠ "aggregations" ∧ kind ≠ "aggs" with
  | none => .rejected (.aggregationEmpty name)
  | some (kind, body) =>
    withField body fun field =>
      match Metric.ofName? kind with
      | some kind => .metric kind field
      | none => .rejected (.unknownAggregation kind)

mutual

def ofJson (name : String) : Json → Aggregation
  | .object spec =>
    let sub := ((subUnder "aggregations" spec).or (subUnder "aggs" spec)).getD []
    match Members.get? "terms" spec, Members.get? "date_histogram" spec with
    | some body, _ => readTerms body sub
    | none, some body => readHistogram body sub
    | none, none => readMetric name spec
  | _ => .rejected (.aggregationNotObject name)

/-- The nested aggregations under a key, if the key is there. -/
def subUnder (key : String) : List (String × Json) → Option (List (String × Aggregation))
  | [] => none
  | (k, .object specs) :: rest => if k = key then some (ofMembers specs) else subUnder key rest
  | (k, _) :: rest => if k = key then some [] else subUnder key rest

def ofMembers : List (String × Json) → List (String × Aggregation)
  | [] => []
  | (name, spec) :: rest => (name, ofJson name spec) :: ofMembers rest

end

/-! ## Grouping documents -/

/-- Documents by a text, in the order in which the texts first appear. A group has the value of its
first document. -/
def groupByText (entries : List (String × Json × Members)) : List (Json × List Members) :=
  (entries.map (·.1)).eraseDups.filterMap fun text =>
    match entries.filter (·.1 = text) with
    | [] => none
    | (_, value, document) :: rest => some (value, document :: rest.map (·.2.2))

/-- Documents by the JSON text of a field; those without the field are left out. -/
def groupByField (field : String) (documents : List Members) : List (Json × List Members) :=
  groupByText (documents.filterMap fun document =>
    (Document.lookup document field).map fun value => (value.render, value, document))

/-- The groups, the largest first, and of equal ones the first in the order of their texts. -/
def sortGroups (groups : List (Json × List Members)) : List (Json × List Members) :=
  groups.mergeSort fun (a, xs) (b, ys) =>
    ys.length < xs.length || (xs.length = ys.length && a.plainText ≤ b.plainText)

/-- Documents with the start of the bucket their time falls into; those without a time are left
out. -/
def keyByTime (field : String) (width offset : Nat) (documents : List Members) :
    List (Int × Members) :=
  documents.filterMap fun document => do
    let m ← (Document.lookup document field).bind Moment.ofStored?
    return (← Moment.floorMillis? m.toMillis width offset, document)

/-- The starts of the buckets from the first that is populated to the last. -/
def bucketStarts (width : Nat) (keys : List Int) : List Int :=
  match keys.min?, keys.max? with
  | some first, some last =>
    (List.range (((last - first) / width).toNat + 1)).map fun (i : Nat) => first + (i * width : Nat)
  | _, _ => []

/-! ## Metrics -/

def floatJson (x : Option Binary64) : Json :=
  match x with
  | some x => .number (.float x)
  | none => .null

def compute (kind : Metric) (values : List Json) : Json :=
  let numbers := values.filterMap Json.binary64?
  match kind with
  | .valueCount => .nat values.length
  | .cardinality => .nat (values.map Json.render).eraseDups.length
  | .sum => floatJson (Binary64.sum? numbers)
  | .avg => floatJson (Binary64.mean? numbers)
  | .min => floatJson (Binary64.least? numbers)
  | .max => floatJson (Binary64.greatest? numbers)

/-! ## Evaluation -/

/-- A bucket with the results of its aggregations. Its key and its count win over results of the
same name. -/
def bucketJson (key : Json) (keyText : Option String) (count : Nat) (results : Members) : Json :=
  let bucket := Members.insert "key" key results
  let bucket := match keyText with
    | some text => Members.insert "key_as_string" (.text text) bucket
    | none => bucket
  .object (Members.insert "doc_count" (.nat count) bucket)

mutual

def evaluate : Aggregation → List Members → Except Rejection Json
  | .terms field size sub, documents => do
    let groups := sortGroups (groupByField field documents)
    let buckets ← (groups.take size).mapM fun (key, members) => do
      return bucketJson key none members.length (← evaluateAll sub members)
    let others := ((groups.drop size).flatMap Prod.snd).length
    return .object [("buckets", .list buckets), ("doc_count_error_upper_bound", .nat 0),
      ("sum_other_doc_count", .nat others)]
  | .histogram field width offset minimum sub, documents => do
    let keyed := keyByTime field width offset documents
    let groups := (bucketStarts width (keyed.map Prod.fst)).map fun start =>
      (start, (keyed.filter (·.1 = start)).map Prod.snd)
    let buckets ← (groups.filter (minimum ≤ ·.2.length)).mapM fun (start, members) => do
      let keyText := (Moment.ofMillis start).toOption.map Moment.format
      return bucketJson (.int start) keyText members.length (← evaluateAll sub members)
    return .object [("buckets", .list buckets)]
  | .metric kind field, documents =>
    .ok (.object [("value", compute kind (documents.filterMap (Document.lookup · field)))])
  | .rejected reason, _ => .error reason

/-- The results of named aggregations, in the order of their names. -/
def evaluateAll : List (String × Aggregation) → List Members → Except Rejection Members
  | [], _ => .ok []
  | (name, aggregation) :: rest, documents => do
    let result ← evaluate aggregation documents
    return (name, result) :: (← evaluateAll rest documents)

end

end Aggregation
end Sluice
