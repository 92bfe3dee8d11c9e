import Sluice.Config

/-!
Reads: rows of a time range as a stream of batches, with what a pipeline leaves to the read. A
stream searches only as far as its batches are taken.
-/
namespace Sluice

structure ReadRequest where
  range : TimeRange
  filter : Option Expr
  pushdown : Pushdown
  /-- A field whose comparisons are applied elsewhere. -/
  skipField : Option String

/-- Why a read cannot start. -/
inductive OpenError where
  | filter (cause : FilterError)
  | windows (cause : WindowError)

/-- A read that has started, before its first search. -/
inductive Reading where
  | forward (pager : Pager)
  /-- Pages backwards, and emits everything at the end, oldest first. -/
  | backward (pager : Pager)
  | windowed (aggregator : Aggregator)

/-- Batches of rows, and the error that ended them. -/
structure Stream where
  batches : List (List Row)
  error : Option ReadError

namespace Stream

variable {σ α : Type}

/-- The non-empty batches of up to `fetches` fetches, and no more of them than `take`. -/
def collect (fetch : α → Session σ → Except ReadError Batch × α × Session σ) :
    Nat → Option Nat → α → Session σ → Stream × Session σ
  | 0, _, _, session => (⟨[], some .unsettled⟩, session)
  | fetches + 1, take, a, session =>
    if take = some 0 then (⟨[], none⟩, session)
    else match fetch a session with
      | (.error e, _, session) => (⟨[], some e⟩, session)
      | (.ok batch, a, session) =>
        let take := if batch.rows.isEmpty then take else take.map (· - 1)
        let (rest, session) :=
          if batch.eof then (⟨[], none⟩, session) else collect fetch fetches take a session
        if batch.rows.isEmpty then (rest, session)
        else (⟨batch.rows :: rest.batches, rest.error⟩, session)

/-- The rows of all batches as one batch, the last batch first; none if the stream failed. -/
def reversed (stream : Stream) : Stream :=
  match stream.error with
  | some e => ⟨[], some e⟩
  | none =>
    let rows := stream.batches.reverse.flatten
    ⟨if rows.isEmpty then [] else [rows], none⟩

end Stream

namespace Reading

variable {σ : Type}

def start? (config : Config) (request : ReadRequest) : Except OpenError Reading := do
  let filter ← match request.filter with
    | none => pure none
    | some e => ((e.clause request.skipField).mapError .filter).map some
  let pager := Pager.start config.indices request.range config.pageOptions filter
  match request.pushdown with
  | .none => return .forward (pager .asc none)
  | .head limit => return .forward (pager .asc (some limit))
  | .tail limit => return .backward (pager .desc (some limit))
  | .reduce descriptor =>
    let aggregator ← (Aggregator.start? config.indices request.range descriptor
      config.windowOptions filter).mapError .windows
    return .windowed aggregator

/-- The first `take` batches, or all of them. Fetches are bounded past every count of them. -/
def run (reading : Reading) (store : Store σ) (take : Option Nat) (session : Session σ) :
    Stream × Session σ :=
  let fetches := Word.unsignedLimit
  match reading with
  | .forward pager => Stream.collect (Pager.fetch store) fetches take pager session
  | .backward pager =>
    if take = some 0 then (⟨[], none⟩, session)
    else
      let (stream, session) := Stream.collect (Pager.fetch store) fetches none pager session
      (stream.reversed, session)
  | .windowed aggregator =>
    Stream.collect (fun a session => a.fetch store session) fetches take aggregator session

end Reading
end Sluice
