import Sluice.Json.Printer
import Sluice.Text.Quoted

/-!
Predicates on documents, as a pipeline writes them.
-/
namespace Sluice

/-- Order comparisons. -/
inductive Comparison where
  | lt | gt | lte | gte
deriving DecidableEq, Repr

/-- The comparison with its sides exchanged. -/
def Comparison.flip : Comparison → Comparison
  | .lt => .gt
  | .gt => .lt
  | .lte => .gte
  | .gte => .lte

inductive Operator where
  | and | or
  | eq | ne
  | order (comparison : Comparison)
  /-- A glob or a regular expression on the right. -/
  | like | notLike
  | isIn
deriving DecidableEq, Repr

namespace Operator

/-- Every operator with its tag in JSON and its symbol in text. -/
def table : List (Operator × String × String) := [
  (.and, "and", "and"), (.or, "or", "or"), (.eq, "eq", "=="), (.ne, "ne", "!="),
  (.order .lt, "lt", "<"), (.order .gt, "gt", ">"), (.order .lte, "lte", "<="),
  (.order .gte, "gte", ">="), (.like, "match", "=~"), (.notLike, "not_match", "!~"),
  (.isIn, "in", "in")]

def names (op : Operator) : String × String := ((table.find? (·.1 = op)).map (·.2)).getD ("", "")

def tag (op : Operator) : String := op.names.1

def symbol (op : Operator) : String := op.names.2

def ofTag? (tag : String) : Option Operator := (table.find? (·.2.1 = tag)).map (·.1)

end Operator

inductive Expr where
  | literal (value : Json)
  | regex (pattern : String)
  | field (name : String)
  /-- A predicate used as a value. -/
  | filter (inner : Expr)
  | freeText (text : String)
  /-- Marks a bare field reference; means what its operand means. -/
  | quote (inner : Expr)
  | not (inner : Expr)
  | binary (op : Operator) (lhs rhs : Expr)

namespace Expr

/-- The field a bare reference names, quoted or not. -/
def field? : Expr → Option String
  | .field name => some name
  | .quote inner => inner.field?
  | _ => none

def literal? : Expr → Option Json
  | .literal value => some value
  | _ => none

def format : Expr → String
  | .literal value => value.render
  | .regex pattern => "/" ++ pattern ++ "/"
  | .field name => name
  | .filter inner => "filter(" ++ inner.format ++ ")"
  | .freeText text => Text.quoted text
  | .quote inner => "#" ++ inner.format
  | .not inner => "not(" ++ inner.format ++ ")"
  | .binary op lhs rhs => "(" ++ lhs.format ++ " " ++ op.symbol ++ " " ++ rhs.format ++ ")"

/-! ## JSON form: an object with the node's tag as its only key -/

def toJson : Expr → Json
  | .literal value => .object [("literal", value)]
  | .regex pattern => .object [("regex", .text pattern)]
  | .field name => .object [("field", .text name)]
  | .filter inner => .object [("filter", inner.toJson)]
  | .freeText text => .object [("free_text", .text text)]
  | .quote inner => .object [("quote", inner.toJson)]
  | .not inner => .object [("not", inner.toJson)]
  | .binary op lhs rhs => .object [(op.tag, .list [lhs.toJson, rhs.toJson])]

def ofJson? : Json → Option Expr
  | .object [(tag, body)] =>
    match tag with
    | "literal" => some (.literal body)
    | "regex" => body.text?.map .regex
    | "field" => body.text?.map .field
    | "free_text" => body.text?.map .freeText
    | "filter" => (ofJson? body).map .filter
    | "quote" => (ofJson? body).map .quote
    | "not" => (ofJson? body).map .not
    | _ =>
      match Operator.ofTag? tag, body with
      | some op, .list [lhs, rhs] => do return .binary op (← ofJson? lhs) (← ofJson? rhs)
      | _, _ => none
  | _ => none

end Expr
end Sluice
