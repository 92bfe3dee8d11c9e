import Sluice.Json.Record
import Sluice.Time.Duration
import Sluice.Pager
import Sluice.Aggregator

/-!
The configuration of a store: where it is, how it is spoken to, and how much is asked of it at once.
-/
namespace Sluice

/-- How a client makes itself known. -/
inductive Auth where
  | none
  | basic (username password : String)
  | apiKey (key : String)
deriving DecidableEq, Repr

namespace Auth

def toJson : Auth → Json
  | .none => .object [("type", .text "none")]
  | .basic username password =>
    .object [("password", .text password), ("type", .text "basic"), ("username", .text username)]
  | .apiKey key => .object [("key", .text key), ("type", .text "api_key")]

/-- Reads the fields of a variant by its name. -/
def ofFields? (name : String) (fields : Json) : Option Auth :=
  match name with
  | "none" => (fields.record? []).map fun _ => .none
  | "basic" => do
    let members ← fields.record? ["username", "password"]
    return .basic (← Json.required? members "username" Json.text?)
      (← Json.required? members "password" Json.text?)
  | "api_key" => do
    let members ← fields.record? ["key"]
    return .apiKey (← Json.required? members "key" Json.text?)
  | _ => Option.none

/-- The variant is named by the member `type`, or by the first item of a list. -/
def ofJson? : Json → Option Auth
  | .object members => do
    let name ← Json.required? members "type" Json.text?
    ofFields? name (.object members)
  | .list (.text name :: rest) => ofFields? name (.list rest)
  | _ => Option.none

end Auth

structure Config where
  url : String
  auth : Auth
  indices : List String
  timeField : String
  fetchSize : Nat
  deepPagingLimit : Nat
  concurrency : Nat
  sizes : BucketSizes
  /-- How long a request may take, in nanoseconds. -/
  timeout : Nat

namespace Config

def ofUrl (url : String) : Config :=
  { url, auth := .none, indices := ["*"], timeField := "@timestamp", fetchSize := 10000
    deepPagingLimit := 10000, concurrency := 10, sizes := .standard, timeout := 30000000000 }

def pageOptions (c : Config) : PageOptions := ⟨c.timeField, c.fetchSize, c.deepPagingLimit⟩

def windowOptions (c : Config) : WindowOptions := ⟨c.timeField, c.concurrency, c.sizes⟩

/-! ## JSON form -/

/-- The fields in their declared order. -/
def fields : List String := ["url", "auth", "indices", "time_field", "fetch_size",
  "deep_paging_limit", "aggregation_concurrency", "cardinality_bucket_size", "bucket_size",
  "request_timeout"]

def duration? (j : Json) : Option Nat := j.text?.bind fun s => (Duration.parse s).toOption

/-- Fields other than the URL may be missing, but not null. -/
def ofJson? (j : Json) : Option Config := do
  let members ← j.record? fields
  let base := ofUrl (← Json.required? members "url" Json.text?)
  let auth ← Json.defaulted? members "auth" base.auth Auth.ofJson?
  let indices ← Json.defaulted? members "indices" base.indices (Json.listOf? Json.text?)
  let timeField ← Json.defaulted? members "time_field" base.timeField Json.text?
  let count (key : String) (default : Nat) := Json.defaulted? members key default Json.unsigned?
  return { base with
    auth, indices, timeField
    fetchSize := ← count "fetch_size" base.fetchSize
    deepPagingLimit := ← count "deep_paging_limit" base.deepPagingLimit
    concurrency := ← count "aggregation_concurrency" base.concurrency
    sizes := ⟨← count "cardinality_bucket_size" base.sizes.cardinality,
      ← count "bucket_size" base.sizes.default⟩
    timeout := ← Json.defaulted? members "request_timeout" base.timeout duration? }

def toJson (c : Config) : Json :=
  .object [
    ("aggregation_concurrency", .nat c.concurrency), ("auth", c.auth.toJson),
    ("bucket_size", .nat c.sizes.default), ("cardinality_bucket_size", .nat c.sizes.cardinality),
    ("deep_paging_limit", .nat c.deepPagingLimit), ("fetch_size", .nat c.fetchSize),
    ("indices", .texts c.indices), ("request_timeout", .text (Duration.format c.timeout)),
    ("time_field", .text c.timeField), ("url", .text c.url)]

end Config
end Sluice
