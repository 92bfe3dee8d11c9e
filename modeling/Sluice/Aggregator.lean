import Sluice.Windows
import Sluice.Session

/-!
Running a reduction inside a store, one search per window and some windows at a time. Rows come in
the order of the windows. Where a reduction is not grouped, windows without documents between two
with some get a row of their own; where it is grouped, a field that the store does not know is
dropped.
-/
namespace Sluice

structure WindowOptions where
  timeField : String
  /-- How many windows are searched before their rows are put together. -/
  concurrency : Nat
  sizes : BucketSizes
deriving DecidableEq, Repr

structure Aggregator where
  indices : List String
  filter : Option Json
  options : WindowOptions
  descriptor : Descriptor
  range : TimeRange
  boundaries : List Moment
  next : Nat
  /-- The last window that had rows, while not grouped. -/
  lastRowWindow : Option Nat

namespace Aggregator

def start? (indices : List String) (range : TimeRange) (descriptor : Descriptor)
    (options : WindowOptions) (filter : Option Json) : Except WindowError Aggregator := do
  let boundaries ← Windows.boundaries range descriptor.every descriptor.phase
  return {
    indices, filter, options, descriptor, range, boundaries, next := 0, lastRowWindow := none }

/-- The windows, each from a boundary to the next. -/
def windows (a : Aggregator) : List (Moment × Moment) := a.boundaries.zip a.boundaries.tail

/-! ## One window -/

variable {σ : Type}

def request (a : Aggregator) (window : TimeRange) (tree : Members) : SearchRequest :=
  let query : Query := {
    start := 0, size := 0, sort := none
    clauses := window.clause a.options.timeField :: a.filter.toList, aggregations := none }
  ⟨a.indices, (query.aggregate tree).toJson⟩

/-- The rows of an answer; without any matching document there are none. -/
def rowsOf (descriptor : Descriptor) (response : Response) : Except ReadError (List Members) :=
  if response.total = 0 then .ok [] else (descriptor.rowsOf response).mapError .rows

/-- The rows of a window, and the descriptor they were had with. A group field that turns out to be
unknown is dropped and the window searched again, each time with fewer fields. -/
def fetchWindow (a : Aggregator) (store : Store σ) (window : TimeRange) (descriptor : Descriptor)
    (session : Session σ) : Except ReadError (List Members × Descriptor) × Session σ :=
  match store.searchOrEmpty .aggregateBucket (a.request window descriptor.tree) session with
  | (answer, session) =>
    match answer.bind (rowsOf descriptor) with
    | .ok rows => (.ok (rows, descriptor), session)
    | .error e =>
      match e.unknownField? with
      | none => (.error e, session)
      | some field =>
        match _h : descriptor.removeField? field a.options.sizes with
        | none => (.error e, session)
        | some fewer => fetchWindow a store window fewer (session.add .fieldRemovals 1)
termination_by descriptor.grouping.length
decreasing_by exact Descriptor.length_grouping_of_removeField? _h

/-- Searches windows one after the other, all of them even when one fails. -/
def fetchWindows (a : Aggregator) (store : Store σ) :
    List (Moment × Moment) → Session σ →
      List (Except ReadError (List Members × Descriptor)) × Session σ
  | [], session => ([], session)
  | window :: rest, session =>
    let (result, session) := a.fetchWindow store (Windows.clip a.range window) a.descriptor session
    let (results, session) := fetchWindows a store rest session
    (result :: results, session)

/-! ## Putting rows together -/

def endStamp (window : Moment × Moment) : Json := .text window.2.format

/-- A row at the end of its window. -/
def stamped (window : Moment × Moment) (log : Members) : Row :=
  ⟨log.insert timeKey (endStamp window), true⟩

/-- The row of a window without documents. -/
def silentRow (a : Aggregator) (window : Moment × Moment) : Row :=
  stamped window (a.descriptor.emptyFields.foldl (fun log field => log.insert field .null)
    a.descriptor.emptyRow)

/-- Drops the fields that a window did without, for all later windows too. -/
def dropFields (a : Aggregator) (used : Descriptor) : Aggregator :=
  used.emptyFields.foldl (fun a field =>
    if field ∈ a.descriptor.emptyFields then a
    else match a.descriptor.removeField? field a.options.sizes with
      | some fewer => { a with descriptor := fewer }
      | none => a) a

/-- The windows between the last one with rows and window `index`. -/
def gap (a : Aggregator) (index : Nat) : List (Moment × Moment) :=
  match a.lastRowWindow with
  | none => []
  | some last => (a.windows.take index).drop (last + 1)

/-- How many windows lie between the last one with rows and window `index`. The count is an unsigned
word, which goes around when windows are fetched again after a failure. -/
def gapCount (a : Aggregator) (index : Nat) : Nat :=
  match a.lastRowWindow with
  | none => 0
  | some last => Word.wrapUnsigned ((index : Int) - last - 1)

/-- Takes in the rows of one window: the rows to emit, those that fill the gap before it first, and
the size of the gap. -/
def receiveWindow (a : Aggregator) (index : Nat) (window : Moment × Moment) (logs : List Members)
    (used : Descriptor) : List Row × Nat × Aggregator :=
  let a := a.dropFields used
  if logs.isEmpty then ([], 0, a)
  else
    let rows := logs.map (stamped window)
    if a.descriptor.isGrouped then (rows, 0, a)
    else
      ((a.gap index).map a.silentRow ++ rows, a.gapCount index,
        { a with lastRowWindow := some index })

/-- Takes in the results of consecutive windows, the first of them window `index`, up to the first
that failed. What was taken in before it stays. -/
def receive (a : Aggregator) (session : Session σ) (index : Nat) :
    List ((Moment × Moment) × Except ReadError (List Members × Descriptor)) →
      Except ReadError (List Row) × Aggregator × Session σ
  | [] => (.ok [], a, session)
  | (_, .error e) :: _ => (.error e, a, session)
  | (window, .ok (logs, used)) :: rest =>
    let (rows, filled, a) := a.receiveWindow index window logs used
    let session := session.add .backfilledRows filled
    match receive a session (index + 1) rest with
    | (.ok more, a, session) => (.ok (rows ++ more), a, session)
    | failed => failed

/-- The rows of the next windows. A failed window leaves them to be fetched again. -/
def fetch (a : Aggregator) (store : Store σ) (session : Session σ) :
    Except ReadError Batch × Aggregator × Session σ :=
  let windows := a.windows
  if windows.length ≤ a.next then (.ok ⟨[], true⟩, a, session)
  else
    let batch := (windows.drop a.next).take (max a.options.concurrency 1)
    let (results, session) := a.fetchWindows store batch session
    match a.receive session a.next (batch.zip results) with
    | (.error e, a, session) => (.error e, a, session)
    | (.ok rows, a, session) =>
      let a := { a with next := a.next + batch.length }
      (.ok ⟨rows, windows.length ≤ a.next⟩, a,
        session.add (.fetchedRows .aggregateBucket) rows.length)

end Aggregator
end Sluice
