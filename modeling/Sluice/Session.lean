import Sluice.Counters
import Sluice.Reduction.Rows
import Sluice.Store.Memory

/-!
Searching a store on behalf of a read: every search is counted, and faults that mean there is
nothing to find become empty answers.
-/
namespace Sluice

/-- A store with state `σ`, which may change with every search. -/
structure Store (σ : Type) where
  search : σ → SearchRequest → Except StoreError Response × σ

/-- The state of a store and the counters of the reads on it. -/
structure Session (σ : Type) where
  store : σ
  counters : Counters

/-- Why a read ended early. -/
inductive ReadError where
  | store (cause : StoreError)
  | connection (reason : String)
  | windowOverflow (limit : Nat)
  | fieldUnknown (field : String)
  | countMismatch (expected got : Nat)
  | deepPaging (limit : Nat)
  | rowWithoutTime (timeField : String)
  | rowTime (cause : StoredTimeError)
  | emptyPage
  | bridgeWithoutInstant
  | rows (cause : RowsError)
  | time (cause : TimeError)
  /-- More searches were needed than were allowed. -/
  | unsettled

namespace ReadError

def message? : ReadError → Option String
  | .store cause => cause.message?
  | .connection reason => some ("failed to connect to the store: " ++ reason)
  | .windowOverflow limit =>
    some ("result window is too large, the store allows at most " ++ toString limit ++
      " rows per request, raise the index's max_result_window or lower fetch_size")
  | .fieldUnknown field => some (RowsError.fieldUnknownMessage field)
  | .countMismatch expected got =>
    some ("results count mismatch: expected " ++ toString expected ++ " rows but got " ++
      toString got ++ ", the result set changed while paging")
  | .deepPaging limit =>
    some ("cannot page through more than " ++ toString limit ++
      " points with an identical timestamp, raise deep_paging_limit to read them all")
  | .rowWithoutTime timeField => some ("row is missing time field '" ++ timeField ++ "'")
  | .rowTime cause => some cause.message
  | .emptyPage => some "non final page returned no rows"
  | .bridgeWithoutInstant => some "bridging without a timestamp to bridge over"
  | .rows cause => some cause.message
  | .time cause => cause.message?
  | .unsettled => some "the read did not settle"

/-- The field that the store does not know, if that is the error. -/
def unknownField? : ReadError → Option String
  | .fieldUnknown field => some field
  | .rows (.fieldUnknown field) => some field
  | _ => none

end ReadError

namespace Session

variable {σ : Type}

def add (session : Session σ) (counter : Counter) (n : Nat) : Session σ :=
  { session with counters := session.counters.add counter n }

end Session

namespace Store

variable {σ : Type}

/-- What a read makes of an error: nothing to find, or the end of the read. -/
def absorb (e : StoreError) : Except ReadError Response :=
  match e.fault with
  | .missingIndex _ | .newIndex => .ok Response.empty
  | .missingField field => .error (.fieldUnknown field)
  | .windowOverflow limit => .error (.windowOverflow limit)
  | .connectionFailure reason => .error (.connection reason)
  | .unclassified => .error (.store e)

/-- Searches, counting the search and its outcome. -/
def searchOrEmpty (store : Store σ) (operation : Operation) (request : SearchRequest)
    (session : Session σ) : Except ReadError Response × Session σ :=
  let (answer, state) := store.search session.store request
  let session := { session with store := state }.add (.requests operation) 1
  match answer with
  | .ok response => (.ok response, session.add .successes 1)
  | .error e => (absorb e, session.add (.errors e.label) 1)

end Store
end Sluice
