import Sluice.Proofs.Predicates

/-!
Skipping a field. The clause of a predicate then means the predicate with every comparison on the
field taken for true. Such a clause accepts more where the comparisons stand under no negation, and
less where each of them stands under one.
-/
namespace Sluice

namespace Expr

/-- The field that a comparison is on. -/
def comparedField? (op : Operator) (lhs rhs : Expr) : Option String :=
  match op with
  | .like | .notLike => lhs.field?
  | _ => (Filter.sides? lhs rhs).map (·.1)

/-- A predicate with every comparison on a field taken for true. -/
def skip (field : String) : Expr → Expr
  | .filter inner => .filter (inner.skip field)
  | .quote inner => .quote (inner.skip field)
  | .not inner => .not (inner.skip field)
  | .binary .and lhs rhs => .binary .and (lhs.skip field) (rhs.skip field)
  | .binary .or lhs rhs => .binary .or (lhs.skip field) (rhs.skip field)
  | .binary op lhs rhs =>
    if comparedField? op lhs rhs = some field then .literal (.bool true) else .binary op lhs rhs
  | e => e

/-- Whether each comparison on a field stands under an even number of negations or, if `negated`,
each of them under an odd one. -/
def comparesUnder (field : String) (negated : Bool) : Expr → Bool
  | .filter inner | .quote inner => inner.comparesUnder field negated
  | .not inner => inner.comparesUnder field !negated
  | .binary .and lhs rhs | .binary .or lhs rhs =>
    lhs.comparesUnder field negated && rhs.comparesUnder field negated
  | .binary op lhs rhs => comparedField? op lhs rhs ≠ some field || !negated
  | _ => true

section Skip

variable {e : Expr} (field : String)

theorem plain_skip (hregex : e.hasRegex = false) (hobject : e.hasObject = false) :
    (e.skip field).hasRegex = false ∧ (e.skip field).hasObject = false := by
  fun_induction skip field e with
  | case1 inner ih | case2 inner ih | case3 inner ih => exact ih hregex hobject
  | case4 lhs rhs ihl ihr | case5 lhs rhs ihl ihr =>
      obtain ⟨hregexl, hregexr⟩ := Bool.or_eq_false_iff.mp hregex
      obtain ⟨hobjectl, hobjectr⟩ := Bool.or_eq_false_iff.mp hobject
      obtain ⟨hregexl, hobjectl⟩ := ihl hregexl hobjectl
      obtain ⟨hregexr, hobjectr⟩ := ihr hregexr hobjectr
      exact ⟨Bool.or_eq_false_iff.mpr ⟨hregexl, hregexr⟩,
        Bool.or_eq_false_iff.mpr ⟨hobjectl, hobjectr⟩⟩
  | case6 => exact ⟨rfl, rfl⟩
  | case7 | case8 => exact ⟨hregex, hobject⟩

/-- Taking comparisons for true takes predicates one way only, where their negations agree. -/
theorem holds_skip {negated : Bool} (h : e.comparesUnder field negated = true)
    {document : Members} (hholds : (e.holds document != negated) = true) :
    ((e.skip field).holds document != negated) = true := by
  fun_induction skip field e generalizing negated with
  | case1 inner ih | case2 inner ih => exact ih h hholds
  | case3 inner ih =>
      have hflip : ∀ b : Bool, ((!b) != negated) = (b != !negated) := by cases negated <;> decide
      rw [holds, hflip] at hholds ⊢
      exact ih h hholds
  | case4 lhs rhs ihl ihr =>
      obtain ⟨hl, hr⟩ := Bool.and_eq_true_iff.mp h
      have hl := ihl hl
      have hr := ihr hr
      cases negated <;> simp [holds] at hl hr hholds ⊢ <;> tauto
  | case5 lhs rhs ihl ihr =>
      obtain ⟨hl, hr⟩ := Bool.and_eq_true_iff.mp h
      have hl := ihl hl
      have hr := ihr hr
      cases negated <;> simp [holds] at hl hr hholds ⊢ <;> tauto
  | case6 op lhs rhs hand hor hfield =>
      have hpositive : negated = false := by simpa [comparesUnder, hfield] using h
      rw [hpositive]
      rfl
  | case7 | case8 => exact hholds

end Skip
end Expr

/-! ## Clauses -/

namespace Filter

variable {op : Operator} {lhs rhs : Expr} {clause : Json} {field : String}

/-- Skipping a field makes the comparisons on it match everything and leaves the others. -/
theorem comparison?_skip (h : comparison? none op lhs rhs = some clause) (field : String) :
    comparison? (some field) op lhs rhs =
      some (if Expr.comparedField? op lhs rhs = some field then Clause.matchAll else clause) := by
  have hskipped : ∀ {name : String} {found : Option Json}, found = some clause →
      (if some field = some name then some Clause.matchAll else found) =
        some (if some name = some field then Clause.matchAll else clause) := by
    intro name found hfound
    rw [hfound, ← apply_ite]
    simp only [eq_comm]
  unfold comparison? at h ⊢
  split at h
  · obtain ⟨name, hname, h⟩ := Option.bind_eq_some_iff.mp h
    simp only [Expr.comparedField?, hname]
    exact hskipped h
  · obtain ⟨name, hname, h⟩ := Option.bind_eq_some_iff.mp h
    simp only [Expr.comparedField?, hname]
    exact hskipped h
  · obtain ⟨⟨name, value, flipped⟩, hsides, h⟩ := Option.bind_eq_some_iff.mp h
    have hfield : Expr.comparedField? op lhs rhs = some name := by
      cases op with
      | like | notLike => contradiction
      | _ => simp [Expr.comparedField?, hsides]
    dsimp only at h
    split at h
    · cases h
    · rename_i hin
      rw [hfield]
      simp only [hsides, Option.bind_eq_bind, Option.bind_some, if_neg hin]
      exact hskipped h

end Filter

theorem Expr.clause_of_comparison? {skip : Option String} {op : Operator} {lhs rhs : Expr}
    {clause : Json} (hand : op ≠ .and) (hor : op ≠ .or)
    (h : Filter.comparison? skip op lhs rhs = some clause) :
    (Expr.binary op lhs rhs).clause skip = .ok clause := by
  rw [clause_comparison skip lhs rhs hand hor, h]
  rfl

/-- A predicate compiles with a field skipped wherever it compiles without, to the clause of the
predicate with the comparisons on the field taken for true. -/
theorem Expr.clause_some {e : Expr} {clause : Json} (h : e.clause none = .ok clause)
    (field : String) :
    ∃ skipped, e.clause (some field) = .ok skipped ∧ (e.skip field).clause none = .ok skipped := by
  fun_induction Expr.skip field e generalizing clause with
  | case1 inner ih | case2 inner ih => exact ih h
  | case3 inner ih =>
      obtain ⟨c, hc, -⟩ := bind_eq_ok.mp h
      obtain ⟨skipped, hskipped, hskip⟩ := ih hc
      exact ⟨Clause.mustNot skipped, by rw [Expr.clause, hskipped]; rfl,
        by rw [Expr.clause, hskip]; rfl⟩
  | case4 lhs rhs ihl ihr =>
      obtain ⟨l, hl, h⟩ := bind_eq_ok.mp h
      obtain ⟨r, hr, -⟩ := bind_eq_ok.mp h
      obtain ⟨left, hleft, hleft'⟩ := ihl hl
      obtain ⟨right, hright, hright'⟩ := ihr hr
      exact ⟨Clause.all [left, right], by rw [Expr.clause, hleft, hright]; rfl,
        by rw [Expr.clause, hleft', hright']; rfl⟩
  | case5 lhs rhs ihl ihr =>
      obtain ⟨l, hl, h⟩ := bind_eq_ok.mp h
      obtain ⟨r, hr, -⟩ := bind_eq_ok.mp h
      obtain ⟨left, hleft, hleft'⟩ := ihl hl
      obtain ⟨right, hright, hright'⟩ := ihr hr
      exact ⟨Clause.any [left, right], by rw [Expr.clause, hleft, hright]; rfl,
        by rw [Expr.clause, hleft', hright']; rfl⟩
  | case6 op lhs rhs hand hor hfield =>
      have hcomparison := Filter.comparison?_skip (Expr.comparison?_of_clause hand hor h) field
      rw [if_pos hfield] at hcomparison
      exact ⟨_, Expr.clause_of_comparison? hand hor hcomparison, rfl⟩
  | case7 op lhs rhs hand hor hfield =>
      have hcomparison := Filter.comparison?_skip (Expr.comparison?_of_clause hand hor h) field
      rw [if_neg hfield] at hcomparison
      exact ⟨clause, Expr.clause_of_comparison? hand hor hcomparison, h⟩
  | case8 e hfilter hquote hnot _ _ hbinary =>
      cases e with
      | filter inner => exact absurd rfl (hfilter inner)
      | quote inner => exact absurd rfl (hquote inner)
      | not inner => exact absurd rfl (hnot inner)
      | binary op lhs rhs => exact absurd rfl (hbinary op lhs rhs)
      | literal value =>
          rcases Expr.clause_literal h with ⟨rfl, rfl⟩ | ⟨rfl, rfl⟩
          · exact ⟨_, rfl, rfl⟩
          · exact ⟨_, rfl, rfl⟩
      | _ => exact ⟨clause, h, h⟩

/-- A predicate that compiles also compiles with a field skipped, and the clause then holds of the
documents of which the predicate holds with every comparison on the field taken for true. It accepts
all that the predicate accepts where the comparisons on the field stand under no negation, and
nothing else where each of them stands under one. -/
theorem Expr.holds_clause_some {e : Expr} {clause : Json} (h : e.clause none = .ok clause)
    (hregex : e.hasRegex = false) (hobject : e.hasObject = false) (field : String) :
    ∃ skipped, e.clause (some field) = .ok skipped ∧ ∀ document : Members,
      Condition.holds document (.ofJson skipped) = .ok ((e.skip field).holds document) ∧
      (e.comparesUnder field false = true →
        Condition.holds document (.ofJson clause) = .ok true →
        Condition.holds document (.ofJson skipped) = .ok true) ∧
      (e.comparesUnder field true = true →
        Condition.holds document (.ofJson skipped) = .ok true →
        Condition.holds document (.ofJson clause) = .ok true) := by
  obtain ⟨skipped, hskipped, hskip⟩ := Expr.clause_some h field
  refine ⟨skipped, hskipped, fun document => ?_⟩
  have hplain := (e.asks_clause h hregex hobject document).2
  obtain ⟨hregex', hobject'⟩ := plain_skip field hregex hobject
  have hmeans := ((e.skip field).asks_clause hskip hregex' hobject' document).2
  rw [hplain, hmeans]
  refine ⟨rfl, fun hunder hholds => ?_, fun hunder hholds => ?_⟩
  · have hwider := @holds_skip e field false hunder document
    simp_all
  · have hnarrower := @holds_skip e field true hunder document
    cases hb : e.holds document <;> simp_all

/-- The field skipped stands under two negations. -/
theorem Expr.holds_clause_some_double :
    let e : Expr := .binary .and
      (.not (.binary .or (.not (.binary .eq (.field "code") (.literal (.nat 1))))
        (.binary .like (.field "path") (.literal (.text "/tmp/*")))))
      (.binary .ne (.field "host") (.literal .null))
    let document : Members := [("code", .nat 1), ("host", .text "a")]
    ∃ clause skipped, e.clause none = .ok clause ∧ e.clause (some "code") = .ok skipped ∧
      e.hasRegex = false ∧ e.hasObject = false ∧ e.comparesUnder "code" false = true ∧
      Condition.holds document (.ofJson clause) = .ok true ∧
      Condition.holds document (.ofJson skipped) = .ok true := by
  intro e document
  obtain ⟨skipped, hskipped, hmeans⟩ := holds_clause_some (e := e) rfl rfl rfl "code"
  have hholds : e.holds document = true := by decide +kernel
  have hplain := (e.asks_clause rfl rfl rfl document).2
  rw [hholds] at hplain
  have hunder : e.comparesUnder "code" false = true := by decide +kernel
  exact ⟨_, skipped, rfl, hskipped, rfl, rfl, hunder, hplain, (hmeans document).2.1 hunder hplain⟩

/-- Under one negation, skipping takes documents away that the predicate accepts. -/
theorem Expr.clause_some_negated :
    let e : Expr := .not (.binary .eq (.field "code") (.literal (.nat 1)))
    let document : Members := [("code", .nat 2)]
    ∃ clause skipped, e.clause none = .ok clause ∧ e.clause (some "code") = .ok skipped ∧
      e.hasRegex = false ∧ e.hasObject = false ∧
      Condition.holds document (.ofJson clause) = .ok true ∧
      Condition.holds document (.ofJson skipped) = .ok false := by
  intro e document
  have hholds : e.holds document = true := by decide +kernel
  have hplain := (e.asks_clause rfl rfl rfl document).2
  rw [hholds] at hplain
  exact ⟨_, _, rfl, rfl, rfl, rfl, hplain, Condition.holds_mustNot _ _⟩

end Sluice
