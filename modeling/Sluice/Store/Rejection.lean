import Sluice.Json.Printer
import Sluice.Time.Duration

/-!
What a store says of a search that it will not run.
-/
namespace Sluice

inductive Rejection where
  | noSuchIndex (name : String)
  | windowTooLarge (limit asked : Nat)
  | malformedClause (clause : Json)
  | unknownQuery (kind : String)
  | fieldExpected (body : Json)
  | termsNotList (field : String)
  | boundsExpected (field : String)
  | existsWithoutField
  | patternNotText (field : String)
  | phraseNotText
  | aggregationNotObject (name : String)
  | aggregationEmpty (name : String)
  | aggregationWithoutField (body : Json)
  | unknownAggregation (kind : String)
  | calendarInterval
  | fixedIntervalExpected
  | intervalMalformed (cause : Duration.MillisError)
  | intervalNotPositive

namespace Rejection

def reason : Rejection → String
  | .noSuchIndex name => "no such index [" ++ name ++ "]"
  | .windowTooLarge limit asked =>
    "Result window is too large, from + size must be less than or equal to: [" ++ toString limit ++
      "] but was [" ++ toString asked ++
      "]. See the scroll api for a more efficient way to request large data sets."
  | .malformedClause clause => "malformed query clause " ++ clause.render
  | .unknownQuery kind => "unknown query [" ++ kind ++ "]"
  | .fieldExpected body => "expected a field in " ++ body.render
  | .termsNotList field => "terms on [" ++ field ++ "] expects an array"
  | .boundsExpected field => "range on [" ++ field ++ "] expects bounds"
  | .existsWithoutField => "exists expects a field"
  | .patternNotText field => "wildcard on [" ++ field ++ "] expects a string"
  | .phraseNotText => "multi_match expects a query string"
  | .aggregationNotObject name => "aggregation [" ++ name ++ "] is not an object"
  | .aggregationEmpty name => "aggregation [" ++ name ++ "] is empty"
  | .aggregationWithoutField body => "aggregation " ++ body.render ++ " expects a field"
  | .unknownAggregation kind => "unknown aggregation type [" ++ kind ++ "]"
  | .calendarInterval => "calendar_interval is not supported by the memory store"
  | .fixedIntervalExpected => "date_histogram expects a fixed_interval"
  | .intervalMalformed cause => cause.message
  | .intervalNotPositive => "date_histogram interval must be positive"

def kind : Rejection → String
  | .noSuchIndex _ => "index_not_found_exception"
  | .windowTooLarge _ _ => "illegal_argument_exception"
  | _ => "parsing_exception"

def status : Rejection → Nat
  | .noSuchIndex _ => 404
  | _ => 400

/-- The payload a store answers with: the cause, once as the root and once on top. -/
def payload (r : Rejection) : Json :=
  let type := ("type", Json.text r.kind)
  let reason := ("reason", Json.text r.reason)
  let index := match r with
    | .noSuchIndex name => [("index", Json.text name)]
    | _ => []
  let cause := index ++ [reason, type]
  .object [
    ("error", .object (index ++ [reason, ("root_cause", .list [.object cause]), type])),
    ("status", .nat r.status)]

end Rejection
end Sluice
