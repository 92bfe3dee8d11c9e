import Sluice.Json.Printer
import Sluice.Json.Reader
import Sluice.Response

/-!
What went wrong in a store: its errors, and the faults behind the payloads it sends. A payload is a
tree of causes; each kind of fault is looked for in the whole tree before the next kind.
-/
namespace Sluice

/-- The fault behind an error of a store. -/
inductive Fault where
  | connectionFailure (reason : String)
  | missingIndex (name : String)
  /-- The index is there, but cannot be searched yet. -/
  | newIndex
  | missingField (name : String)
  | windowOverflow (limit : Nat)
  | unclassified
deriving DecidableEq, Repr

/-- The labels under which errors are counted. -/
inductive FaultLabel where
  | unknown | server | connection | missingIndex | newIndex | missingField | windowOverflow
deriving DecidableEq, Repr

namespace Fault

def label : Fault → FaultLabel
  | .connectionFailure _ => .connection
  | .missingIndex _ => .missingIndex
  | .newIndex => .newIndex
  | .missingField _ => .missingField
  | .windowOverflow _ => .windowOverflow
  | .unclassified => .unknown

/-! ## Causes -/

/-- One cause of an error, as a store reports it. -/
structure Cause where
  kind : String
  reason : String
  index : Option String

namespace Cause

def textUnder (key : String) (members : Members) : String :=
  ((Members.get? key members).bind Json.text?).getD ""

/-- What an object says of itself. -/
def ofMembers (members : Members) : Cause :=
  let index := match Members.get? "index" members with
    | some index => some index
    | none => Members.get? "resource.id" members
  ⟨textUnder "type" members, textUnder "reason" members, index.bind Json.text?⟩

mutual

/-- The causes in a value, each before those nested in it. -/
def collect : Json → List Cause
  | .text reason => [⟨"", reason, none⟩]
  | .object members =>
    ofMembers members :: (inList "root_cause" members ++ inList "failed_shards" members ++
      inObject "reason" members ++ inObject "caused_by" members)
  | _ => []

def inList (key : String) : List (String × Json) → List Cause
  | [] => []
  | (k, .list items) :: rest => if k = key then collectItems items else inList key rest
  | (k, _) :: rest => if k = key then [] else inList key rest

def inObject (key : String) : List (String × Json) → List Cause
  | [] => []
  | (k, .object members) :: rest =>
    if k = key then collect (.object members) else inObject key rest
  | (k, _) :: rest => if k = key then [] else inObject key rest

def collectItems : List Json → List Cause
  | [] => []
  | cause :: rest => collect cause ++ collectItems rest

end

end Cause

/-! ## Markers in reasons -/

/-- What follows the first place where `marker` stands. -/
def after? (marker : List Char) : List Char → Option (List Char)
  | [] => if marker.isEmpty then some [] else none
  | c :: cs =>
    if marker.isPrefixOf (c :: cs) then some ((c :: cs).drop marker.length) else after? marker cs

/-- The text in the first brackets behind `marker`. -/
def bracketedAfter? (reason marker : String) : Option String := do
  let rest ← after? marker.toList reason.toList
  let inner ← after? ['['] rest
  if inner.contains ']' then return String.ofList (inner.takeWhile (· ≠ ']')) else none

/-- An unsigned 64-bit word in decimal digits, with a plus sign or without. -/
def wordOf? (s : String) : Option Nat :=
  let digits := match s.toList with
    | '+' :: digits => digits
    | digits => digits
  let n := Nat.ofDigitChars 10 digits 0
  if digits ≠ [] ∧ digits.all Char.isDigit ∧ n < Word.unsignedLimit then some n else none

/-! ## Classification -/

def missingIndex? (causes : List Cause) : Option Fault :=
  (causes.find? (·.kind = "index_not_found_exception")).map fun cause =>
    .missingIndex ((cause.index.or (bracketedAfter? cause.reason "no such index")).getD "")

def windowOverflow? (causes : List Cause) : Option Fault :=
  causes.findSome? fun cause =>
    ((bracketedAfter? cause.reason "Result window is too large").bind wordOf?).map .windowOverflow

def missingField? (causes : List Cause) : Option Fault :=
  causes.findSome? fun cause =>
    ["No mapping found for", "Set fielddata=true on"].findSome? fun marker =>
      (bracketedAfter? cause.reason marker).map .missingField

def newIndex? (causes : List Cause) : Option Fault :=
  if causes.any fun cause => cause.kind = "no_shard_available_action_exception" ||
      (after? "primary shard is not active".toList cause.reason.toList).isSome then
    some .newIndex
  else none

/-- The fault of a list of causes. -/
def ofCauses (causes : List Cause) : Fault :=
  ((missingIndex? causes).or <| (windowOverflow? causes).or <| (missingField? causes).or <|
    newIndex? causes).getD .unclassified

/-- The fault of a payload, whose causes stand under `error` or make up the whole. -/
def ofPayload (payload : Json) : Fault :=
  ofCauses (Cause.collect ((payload.member? "error").getD payload))

/-- The fault of a body. One that is no JSON is a reason by itself. -/
def ofBody (body : String) : Fault := ofPayload ((Json.parse? body).getD (.text body))

end Fault

/-- An error of a store, as its caller gets it. -/
inductive StoreError where
  /-- The request never got an answer. -/
  | transport (reason : String)
  /-- The store answered with an error status. -/
  | refused (status : Nat) (body : String)
  | undecodable (cause : Undecodable)
  | other (text : String)

namespace StoreError

def message? : StoreError → Option String
  | .transport reason => some ("HTTP request error: " ++ reason)
  | .refused status body => some ("server response error (" ++ toString status ++ "): " ++ body)
  | .undecodable cause => cause.message?
  | .other text => some text

def fault : StoreError → Fault
  | .transport reason => .connectionFailure reason
  | .refused _ body => Fault.ofBody body
  | _ => .unclassified

/-- The label an error is counted under; a refusal without a known fault is the server's. -/
def label (e : StoreError) : FaultLabel :=
  match e.fault, e with
  | .unclassified, .refused _ _ => .server
  | fault, _ => fault.label

end StoreError
end Sluice
