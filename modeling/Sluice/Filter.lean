import Sluice.Expr

/-!
Compiling predicates into the clauses of the store's query language. A field may be skipped: every
comparison on it then matches all documents, as something else already applies it.
-/
namespace Sluice

/-- A node that the store has no clause for. -/
inductive FilterError where
  | invalidOperator (node : Expr)

def FilterError.message : FilterError → String
  | .invalidOperator node => "invalid operator: " ++ node.format

namespace Clause

/-! ## Clauses as JSON -/

def matchAll : Json := .object [("match_all", .object [])]

def matchNone : Json := .object [("match_none", .object [])]

/-- A clause on one field. -/
def onField (kind field : String) (value : Json) : Json :=
  .object [(kind, .object [(field, value)])]

def existence (field : String) : Json := .object [("exists", .object [("field", .text field)])]

def mustNot (clause : Json) : Json := .object [("bool", .object [("must_not", clause)])]

def all (clauses : List Json) : Json := .object [("bool", .object [("must", .list clauses)])]

def any (clauses : List Json) : Json :=
  .object [("bool", .object [("minimum_should_match", .nat 1), ("should", .list clauses)])]

/-- A phrase anywhere in the document. -/
def phrase (text : String) : Json :=
  .object [("multi_match", .object [
    ("fields", .list [.text "*"]), ("lenient", .bool true), ("query", .text text),
    ("type", .text "phrase")])]

end Clause

namespace Filter

def rangeKey : Comparison → String
  | .lt => "lt"
  | .gt => "gt"
  | .lte => "lte"
  | .gte => "gte"

/-- The field and the value of a comparison, and whether the field stands on the right. Exactly one
side must be a field. -/
def sides? (lhs rhs : Expr) : Option (String × Expr × Bool) :=
  match lhs.field?, rhs.field? with
  | some field, none => some (field, rhs, false)
  | none, some field => some (field, lhs, true)
  | _, _ => none

/-- Equality with a literal. A list stands for any of its values; to equal null is not to exist. -/
def equality (negated : Bool) (field : String) (value : Json) : Json :=
  let clause := match value with
    | .null => Clause.existence field
    | .list _ => Clause.onField "terms" field value
    | _ => Clause.onField "term" field value
  if negated = value.isNull then clause else Clause.mustNot clause

/-- An order comparison, written with the field on the left. -/
def ordering? (comparison : Comparison) (flipped : Bool) (field : String) (value : Json) :
    Option Json :=
  if value.isNull || value.isList then none
  else
    let comparison := if flipped then comparison.flip else comparison
    some (Clause.onField "range" field (.object [(rangeKey comparison, value)]))

/-- A glob given as a text, or a regular expression. -/
def pattern? (field : String) : Expr → Option Json
  | .literal (.text glob) =>
    some (Clause.onField "wildcard" field (.object [("value", .text glob)]))
  | .regex regex => some (Clause.onField "regexp" field (.object [("value", .text regex)]))
  | _ => none

/-- The clause of a comparison on a field, if it is well formed. -/
def comparison? (skip : Option String) (op : Operator) (lhs rhs : Expr) : Option Json :=
  match op with
  | .like | .notLike => do
    let field ← lhs.field?
    if skip = some field then return Clause.matchAll
    let clause ← pattern? field rhs
    return if op = .notLike then Clause.mustNot clause else clause
  | _ => do
    let (field, value, flipped) ← sides? lhs rhs
    if op = .isIn ∧ flipped then none
    else if skip = some field then return Clause.matchAll
    else
      let value ← value.literal?
      match op with
      | .eq => return equality false field value
      | .ne => return equality true field value
      | .order comparison => ordering? comparison flipped field value
      | _ => if value.isList then return Clause.onField "terms" field value else none

end Filter

/-- The clause of a predicate. The first node without one, from the left, is at fault. -/
def Expr.clause (skip : Option String) : Expr → Except FilterError Json
  | .literal (.bool true) => .ok Clause.matchAll
  | .literal (.bool false) => .ok Clause.matchNone
  | .freeText text => .ok (Clause.phrase text)
  | .filter inner | .quote inner => inner.clause skip
  | .not inner => do return Clause.mustNot (← inner.clause skip)
  | .binary .and lhs rhs => do return Clause.all [← lhs.clause skip, ← rhs.clause skip]
  | .binary .or lhs rhs => do return Clause.any [← lhs.clause skip, ← rhs.clause skip]
  | .binary op lhs rhs =>
    match Filter.comparison? skip op lhs rhs with
    | some clause => .ok clause
    | none => .error (.invalidOperator (.binary op lhs rhs))
  | node => .error (.invalidOperator node)

end Sluice
