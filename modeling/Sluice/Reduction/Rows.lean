import Sluice.Reduction.Descriptor
import Sluice.Response
import Sluice.Time.Stored

/-!
Flattening the buckets of a response into rows: one row per innermost bucket, which carries the keys
of the buckets around it.
-/
namespace Sluice

/-- Why the key of a time bucket is no time. -/
inductive BucketKeyError where
  | millis (cause : TimeError)
  | stored (cause : StoredTimeError)

/-- Why a response does not have the buckets that were asked for. -/
inductive RowsError where
  | levelMissing (key : String)
  | levelIsValue (key : String)
  /-- No buckets for a group field: the store does not know it. -/
  | fieldUnknown (field : String)
  | timeKey (cause : BucketKeyError)

namespace TimeError

/-- The text of an error that arithmetic can report; the others end the program. -/
def message? : TimeError → Option String
  | .outOfYears | .emptyPeriod => none
  | .millisOutOfRange millis => some ("timestamp " ++ toString millis ++ "ms out of range")

end TimeError

namespace RowsError

def fieldUnknownMessage (field : String) : String :=
  "field '" ++ field ++ "' is not in the store's mapping"

def causeMessage : RowsError → String
  | .levelMissing key => "aggregation '" ++ key ++ "' not found in response"
  | .levelIsValue key => "expected buckets for '" ++ key ++ "', not a value"
  | .fieldUnknown field => fieldUnknownMessage field
  | .timeKey (.millis cause) => "parse time bucket key: " ++ cause.message?.getD ""
  | .timeKey (.stored cause) => "parse time bucket key: " ++ cause.message

def message (e : RowsError) : String := "parse aggregation response: " ++ e.causeMessage

end RowsError

namespace Descriptor

/-- The row of an innermost bucket: the values in it, its count, the null fields and the keys around
it, where later ones replace earlier ones of the same name. -/
def leafRow (d : Descriptor) (results : Results) (count : Nat) (path : List (String × Json)) :
    Members :=
  let values := results.filterMap fun (name, result) =>
    match result with
    | .value v => some (name, v)
    | .buckets _ => none
  let counts := (d.countField.map fun field => (field, Json.nat count)).toList
  Members.ofList (values ++ counts ++ d.emptyFields.map (·, Json.null) ++ path)

/-- The time a bucket starts at: its key in milliseconds, else the text of its key, else the key as
a stored time. -/
def timeOfBucket (bucket : Bucket) : Except BucketKeyError Moment :=
  match bucket.key.signed?, bucket.keyText with
  | some millis, _ => (Moment.ofMillis millis).mapError .millis
  | none, some text => (Moment.ofStored (.text text)).mapError .stored
  | none, none => (Moment.ofStored bucket.key).mapError .stored

/-- Whether `key` is the level of time buckets. -/
def isTimeLevel (timeBucketed : Bool) (key : String) : Bool := timeBucketed && key = timeKey

def bucketKey (timeBucketed : Bool) (key : String) (bucket : Bucket) : Except RowsError Json :=
  if isTimeLevel timeBucketed key then do
    let m ← (timeOfBucket bucket).mapError .timeKey
    return .text m.format
  else return bucket.key

/-- The rows below the levels that `path` leads through. Empty time buckets of a group have none. -/
def rowsBelow (d : Descriptor) (timeBucketed : Bool) :
    List String → Results → Nat → List (String × Json) → Except RowsError (List Members)
  | [], results, count, path =>
    if timeBucketed && d.isGrouped && count = 0 then .ok [] else .ok [d.leafRow results count path]
  | key :: keys, results, _, path =>
    match results.lookup key with
    | none => .error (.levelMissing key)
    | some (.value _) => .error (.levelIsValue key)
    | some (.buckets []) =>
      if isTimeLevel timeBucketed key then .ok [] else .error (.fieldUnknown key)
    | some (.buckets buckets) => do
      let rows ← buckets.mapM fun bucket => do
        let value ← bucketKey timeBucketed key bucket
        rowsBelow d timeBucketed keys bucket.sub bucket.count (path ++ [(key, value)])
      return rows.flatten

/-- The rows by their time, those without one first; untouched if no row has the time key. -/
def sortByTime (rows : List Members) : List Members :=
  if rows.any (Members.contains timeKey) then
    let keyed := rows.map fun row =>
      (((Members.get? timeKey row).bind Moment.ofStored?).map Moment.nanos, row)
    let notAfter : Option Int → Option Int → Bool
      | none, _ => true
      | some _, none => false
      | some a, some b => a ≤ b
    (keyed.mergeSort fun a b => notAfter a.1 b.1).map Prod.snd
  else rows

/-- The rows of a response, one if nothing is grouped and there are no time buckets. -/
def rowsOf (d : Descriptor) (response : Response) : Except RowsError (List Members) := do
  let timeBucketed := Tree.hasHistogram d.tree
  let keys := d.grouping ++ if timeBucketed then [timeKey] else []
  return sortByTime (← rowsBelow d timeBucketed keys response.aggregations response.total [])

end Descriptor
end Sluice
