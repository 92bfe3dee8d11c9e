import Sluice.Proofs.Clauses

/-!
The grammar of predicates that compile. A predicate is gone through down to the nodes that join
nothing, from the left, and it compiles if each of them has a clause; otherwise the first that has
none is at fault.
-/
namespace Sluice

namespace Expr

/-! ## The grammar -/

/-- The name of a field, quoted or not. -/
inductive Reference : Expr → Prop
  | field (name : String) : Reference (.field name)
  | quote {inner : Expr} (h : Reference inner) : Reference (.quote inner)

/-- A reference on one side and a literal on the other. -/
inductive Faces (value : Json) : Expr → Expr → Prop
  | right {lhs : Expr} (h : Reference lhs) : Faces value lhs (.literal value)
  | left {rhs : Expr} (h : Reference rhs) : Faces value (.literal value) rhs

inductive Pattern : Expr → Prop
  | glob (text : String) : Pattern (.literal (.text text))
  | regex (text : String) : Pattern (.regex text)

/-- The nodes that have a clause of their own. -/
inductive Clausal : Expr → Prop
  | bool (b : Bool) : Clausal (.literal (.bool b))
  | freeText (text : String) : Clausal (.freeText text)
  | eq {lhs rhs : Expr} {value : Json} (h : Faces value lhs rhs) : Clausal (.binary .eq lhs rhs)
  | ne {lhs rhs : Expr} {value : Json} (h : Faces value lhs rhs) : Clausal (.binary .ne lhs rhs)
  | order (comparison : Comparison) {lhs rhs : Expr} {value : Json} (h : Faces value lhs rhs)
      (hnull : value ≠ .null) (hlist : ∀ items, value ≠ .list items) :
      Clausal (.binary (.order comparison) lhs rhs)
  | like {lhs rhs : Expr} (hlhs : Reference lhs) (hrhs : Pattern rhs) :
      Clausal (.binary .like lhs rhs)
  | notLike {lhs rhs : Expr} (hlhs : Reference lhs) (hrhs : Pattern rhs) :
      Clausal (.binary .notLike lhs rhs)
  | isIn {lhs : Expr} (h : Reference lhs) (items : List Json) :
      Clausal (.binary .isIn lhs (.literal (.list items)))

/-- The nodes that are reached by going down through those that only wrap or join predicates, from
the left. -/
def reached : Expr → List Expr
  | .filter inner | .quote inner | .not inner => inner.reached
  | .binary .and lhs rhs | .binary .or lhs rhs => lhs.reached ++ rhs.reached
  | node => [node]

/-! ## Comparisons -/

end Expr

namespace Filter

open Sluice.Expr

variable {op : Operator} {lhs rhs : Expr}

end Filter

/-! ## Predicates -/

namespace Expr

/-- The first of some nodes that has no clause. -/
def Blames (nodes : List Expr) (node : Expr) : Prop :=
  ∃ before after, nodes = before ++ node :: after ∧ (∀ n ∈ before, Clausal n) ∧ ¬Clausal node

variable {nodes more : List Expr} {node other : Expr}

open Classical in
theorem blames_iff : Blames nodes node ↔ nodes.find? (¬Clausal ·) = some node := by
  rw [List.find?_eq_some_iff_append]
  constructor
  · rintro ⟨before, after, hnodes, hbefore, hnode⟩
    exact ⟨by simpa using hnode, before, after, hnodes, by simpa using hbefore⟩
  · rintro ⟨hnode, before, after, hnodes, hbefore⟩
    exact ⟨before, after, hnodes, by simpa using hbefore, by simpa using hnode⟩

theorem Blames.unique (h : Blames nodes node) (h' : Blames nodes other) : node = other :=
  Option.some.inj ((blames_iff.mp h).symm.trans (blames_iff.mp h'))

/-- What compiling a predicate comes to: a clause where all nodes that are reached have one, and
otherwise the first that has none. -/
inductive Outcome (nodes : List Expr) : Except FilterError Json → Prop
  | clause (clause : Json) (h : ∀ node ∈ nodes, Clausal node) : Outcome nodes (.ok clause)
  | fault (node : Expr) (h : Blames nodes node) : Outcome nodes (.error (.invalidOperator node))

theorem Outcome.map {outcome : Except FilterError Json} (h : Outcome nodes outcome)
    (f : Json → Json) : Outcome nodes (do return f (← outcome)) := by
  cases h with
  | clause clause h => exact .clause (f clause) h
  | fault node h => exact .fault node h

/-- Nothing joins two predicates without a clause on either side: the left one is at fault. -/
example : (Expr.binary .and (.quote (.field "host")) (.literal .null)).clause none =
    .error (.invalidOperator (.field "host")) := rfl

end Expr
end Sluice
