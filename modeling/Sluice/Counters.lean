import Sluice.Fault

/-!
Counters of what reads do.
-/
namespace Sluice

/-- The kinds of requests that reads send. -/
inductive Operation where
  | page | bridge | aggregateBucket
deriving DecidableEq, Repr

inductive Counter where
  /-- Searches sent, failed ones too. -/
  | requests (operation : Operation)
  | fetchedRows (operation : Operation)
  | successes
  | errors (label : FaultLabel)
  /-- Searches for rows that share a timestamp, sent or about to be. -/
  | bridgeRounds
  | fieldRemovals
  | backfilledRows
deriving DecidableEq, Repr

/-- How far each counter has grown; a counter may stand several times. -/
structure Counters where
  entries : List (Counter × Nat)

namespace Counters

def zero : Counters := ⟨[]⟩

def addTo (counter : Counter) (n : Nat) : List (Counter × Nat) → List (Counter × Nat)
  | [] => [(counter, n)]
  | (c, m) :: rest => if c = counter then (c, m + n) :: rest else (c, m) :: addTo counter n rest

def add (counters : Counters) (counter : Counter) (n : Nat) : Counters :=
  ⟨addTo counter n counters.entries⟩

def count (counters : Counters) (counter : Counter) : Nat :=
  (counters.entries.lookup counter).getD 0

theorem lookup_addTo (counter other : Counter) (n : Nat) (entries : List (Counter × Nat)) :
    ((addTo counter n entries).lookup other).getD 0 =
      (entries.lookup other).getD 0 + if other = counter then n else 0 := by
  induction entries with
  | nil =>
    by_cases h : other = counter
    · simp [addTo, h]
    · have : (other == counter) = false := by simp [h]
      simp [addTo, List.lookup_cons, this, h]
  | cons entry rest ih =>
    obtain ⟨c, m⟩ := entry
    by_cases hc : c = counter
    · subst hc
      by_cases h : other = c
      · simp [addTo, h]
      · have : (other == c) = false := by simp [h]
        simp [addTo, List.lookup_cons, this, h]
    · by_cases h : other = c
      · subst h
        simp [addTo, hc]
      · have : (other == c) = false := by simp [h]
        simp [addTo, hc, List.lookup_cons, this, ih]

theorem count_add (counters : Counters) (counter other : Counter) (n : Nat) :
    (counters.add counter n).count other =
      counters.count other + if other = counter then n else 0 :=
  lookup_addTo counter other n counters.entries

end Counters
end Sluice
