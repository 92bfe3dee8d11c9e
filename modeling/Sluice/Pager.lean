import Sluice.Query
import Sluice.Session

/-!
Reading rows in time order, page by page, with none skipped and none repeated. Times are told apart
at the millisecond. A page that is not the last gives up its rows at the last time, as more of them
may follow, and the next page starts there. A page that holds one time only is bridged: its rows are
read by offset, and paging goes on behind that time.
-/
namespace Sluice

structure PageOptions where
  /-- The store's name of the time field. -/
  timeField : String
  fetchSize : Nat
  /-- The largest offset plus size while bridging. -/
  deepPagingLimit : Nat
deriving DecidableEq, Repr

inductive PagerState where
  | idle | paging | bridging | done
deriving DecidableEq, Repr

structure Pager where
  indices : List String
  filter : Option Json
  options : PageOptions
  direction : Direction
  limit : Option Nat
  /-- What is left to read. -/
  range : TimeRange
  state : PagerState
  emitted : Nat
  bridgeOffset : Nat
  /-- The last time seen at the end of a page; the time bridged, while bridging. -/
  lastSeen : Option Moment
  bridging : Bool

namespace Pager

def start (indices : List String) (range : TimeRange) (options : PageOptions)
    (filter : Option Json) (direction : Direction) (limit : Option Nat) : Pager :=
  { indices, filter, options, direction, limit, range
    state := .idle, emitted := 0, bridgeOffset := 0, lastSeen := none, bridging := false }

/-- How many rows may still be emitted, if there is a limit. -/
def remaining (p : Pager) : Option Nat := p.limit.map (· - p.emitted)

def requestSize (p : Pager) : Nat :=
  match p.remaining with
  | some n => min n p.options.fetchSize
  | none => p.options.fetchSize

/-! ## Requests -/

def request (p : Pager) (start : Nat) (clause : Json) : SearchRequest :=
  let query : Query := {
    start, size := p.requestSize, sort := some (p.options.timeField, p.direction)
    clauses := clause :: p.filter.toList, aggregations := none }
  ⟨p.indices, query.toJson⟩

def pageRequest (p : Pager) : SearchRequest := p.request 0 (p.range.clause p.options.timeField)

def bridgeRequest (p : Pager) (instant : Moment) : SearchRequest :=
  p.request p.bridgeOffset (instant.clause p.options.timeField)

/-! ## Rows -/

/-- A row with the time it is told apart by. -/
abbrev Keyed := Moment × Members

/-- Moves the time of a document to the time key. The row keeps the whole time and is keyed by its
millisecond. -/
def keyed (timeField : String) (document : Members) : Except ReadError Keyed :=
  match Members.get? timeField document with
  | none => .error (.rowWithoutTime timeField)
  | some value =>
    match Moment.ofStored value with
    | .error cause => .error (.rowTime cause)
    | .ok m =>
      .ok (m.truncateMillis, (Members.erase timeField document).insert timeKey (.text m.format))

/-- Hands rows over, oldest first and no more than remain. -/
def emit (p : Pager) (rows : List Keyed) : Batch × Pager :=
  let rows := match p.remaining with
    | some n => rows.take n
    | none => rows
  let rows := match p.direction with
    | .asc => rows
    | .desc => rows.reverse
  let p := { p with emitted := p.emitted + rows.length }
  let p := if p.remaining = some 0 then { p with state := .done } else p
  (⟨rows.map fun row => ⟨row.2, false⟩, p.state = .done⟩, p)

def oneMilli : Int := Moment.nanosPerMilli

/-- The range with the times up to `m` left behind, and `m` too unless `inclusive`. -/
def advanceTo (p : Pager) (m : Moment) (inclusive : Bool) : Except TimeError TimeRange :=
  match p.direction, inclusive with
  | .asc, true => .ok { p.range with start := m }
  | .asc, false => do return { p.range with start := ← m.later oneMilli }
  | .desc, true => do return { p.range with stop := ← m.later oneMilli }
  | .desc, false => .ok { p.range with stop := m }

/-! ## Answers -/

/-- Takes in a page. -/
def receivePage (p : Pager) (response : Response) : Except ReadError Batch × Pager :=
  match response.hits.mapM (keyed p.options.timeField) with
  | .error e => (.error e, p)
  | .ok rows =>
    let size := p.requestSize
    let got := rows.length
    if got = response.total then
      let (batch, p) := { p with state := .done }.emit rows
      (.ok batch, p)
    else if got ≠ size then (.error (.countMismatch size got), p)
    else if p.remaining = some got then
      let (batch, p) := p.emit rows
      (.ok batch, p)
    else match rows.head?, rows.getLast? with
      | some (first, _), some (last, _) =>
        let p := { p with lastSeen := some last }
        if first.nanos = last.nanos then
          (.ok ⟨[], false⟩, { p with bridging := true, bridgeOffset := 0, state := .bridging })
        else match p.advanceTo last true with
          | .error cause => (.error (.time cause), p)
          | .ok range =>
            let (batch, p) := { p with range }.emit (rows.filter (·.1.nanos ≠ last.nanos))
            (.ok batch, p)
      | _, _ => (.error .emptyPage, p)

/-- Takes in the rows of one time, from the offset they were asked for. -/
def receiveBridge (p : Pager) (instant : Moment) (response : Response) :
    Except ReadError Batch × Pager :=
  match response.hits.mapM (keyed p.options.timeField) with
  | .error e => (.error e, p)
  | .ok rows =>
    let size := p.requestSize
    let got := rows.length
    if response.total ≤ got + p.bridgeOffset then
      match p.advanceTo instant false with
      | .error cause => (.error (.time cause), p)
      | .ok range =>
        let (batch, p) :=
          { p with range, bridging := false, bridgeOffset := 0, state := .paging }.emit rows
        if !batch.eof && p.range.isEmpty then
          (.ok { batch with eof := true }, { p with state := .done })
        else (.ok batch, p)
    else if got ≠ size then (.error (.countMismatch size got), p)
    else
      let (batch, p) := { p with bridgeOffset := p.bridgeOffset + got }.emit rows
      if !batch.eof && p.range.isEmpty then
        (.ok { batch with eof := true }, { p with state := .done })
      else (.ok batch, p)

/-! ## Fetching -/

variable {σ : Type}

/-- The pager, done if nothing is left to read. -/
def settle (p : Pager) : Pager :=
  if p.state ≠ .done ∧ (p.remaining = some 0 ∨ p.range.isEmpty) then { p with state := .done }
  else p

/-- Counts the rows that an operation hands over. -/
def countRows (operation : Operation) (result : Except ReadError Batch) (session : Session σ) :
    Session σ :=
  match result with
  | .ok batch => session.add (.fetchedRows operation) batch.rows.length
  | .error _ => session

def fetchPage (store : Store σ) (p : Pager) (session : Session σ) :
    Except ReadError Batch × Pager × Session σ :=
  let p := { p with state := .paging }
  match store.searchOrEmpty .page p.pageRequest session with
  | (.error e, session) => (.error e, p, session)
  | (.ok response, session) =>
    let (result, p) := p.receivePage response
    (result, p, countRows .page result session)

def fetchBridge (store : Store σ) (p : Pager) (session : Session σ) :
    Except ReadError Batch × Pager × Session σ :=
  match p.lastSeen with
  | none => (.error .bridgeWithoutInstant, p, session)
  | some instant =>
    if p.options.deepPagingLimit < p.bridgeOffset + p.requestSize then
      (.error (.deepPaging p.options.deepPagingLimit), p, session)
    else
      let session := session.add .bridgeRounds 1
      match store.searchOrEmpty .bridge (p.bridgeRequest instant) session with
      | (.error e, session) => (.error e, p, session)
      | (.ok response, session) =>
        let (result, p) := p.receiveBridge instant response
        (result, p, countRows .bridge result session)

/-- One search, or none if nothing is left to read. -/
def turn (store : Store σ) (p : Pager) (session : Session σ) :
    Except ReadError Batch × Pager × Session σ :=
  let p := p.settle
  match p.state with
  | .done => (.ok ⟨[], true⟩, p, session)
  | .bridging => fetchBridge store p session
  | .idle | .paging => fetchPage store p session

/-- The next batch with rows, or the end, after at most `searches` searches. -/
def fetchWithin (store : Store σ) : Nat → Pager → Session σ →
    Except ReadError Batch × Pager × Session σ
  | 0, p, session => (.error .unsettled, p, session)
  | searches + 1, p, session =>
    match turn store p session with
    | (.ok batch, p, session) =>
      if batch.eof || !batch.rows.isEmpty then (.ok batch, p, session)
      else fetchWithin store searches p session
    | failed => failed

/-- The next batch with rows, or an empty one at the end. Against a store that agrees with itself
few searches are needed; the bound is past every count of them. -/
def fetch (store : Store σ) (p : Pager) (session : Session σ) :
    Except ReadError Batch × Pager × Session σ :=
  fetchWithin store Word.unsignedLimit p session

end Pager
end Sluice
