import Mathlib
import Sluice.Proofs.Outcomes
import Sluice.Query
import Sluice.Store.Condition

/-!
What the clauses of searches ask of a document. The clauses that predicates compile to are never
refused: every document either meets them or does not.
-/
namespace Sluice

theorem Json.unsigned?_nat {n : Nat} (h : n < Word.unsignedLimit) :
    (Json.nat n).unsigned? = some n := by
  have hfits : Word.FitsUnsigned n := ⟨Int.natCast_nonneg n, Int.ofNat_lt.mpr h⟩
  rw [Json.nat, Json.unsigned?, if_pos hfits, Int.toNat_natCast]

namespace Condition

variable {document : Members}

-- A clause of known kind is read by evaluation.
attribute [local simp] ofJson ofBody leaf onField expected holds

/-! ## Combined clauses -/

/-- Without optional conditions their number does not matter. -/
theorem holds_combination (required excluded : List Condition) (minimum : Nat) :
    holds document (.combination required excluded [] minimum) =
      (allHold document required).bind fun b =>
        if b then noneHolds document excluded else .ok false := by
  simp only [holds]
  cases allHold document required with
  | error e => rfl
  | ok b =>
      cases b with
      | false => rfl
      | true =>
          cases noneHolds document excluded with
          | error e => rfl
          | ok b => cases b <;> rfl

theorem holds_all (clauses : List Json) :
    holds document (ofJson (Clause.all clauses)) = allHold document (ofItems clauses) := by
  have hread : ∃ minimum, ofJson (Clause.all clauses) =
      .combination (ofItems clauses) [] [] minimum := by
    simp [Clause.all, listUnder]
  obtain ⟨minimum, hread⟩ := hread
  rw [hread, holds_combination]
  cases allHold document (ofItems clauses) with
  | error e => rfl
  | ok b => cases b <;> rfl

theorem holds_any (clause : Json) (clauses : List Json) :
    holds document (ofJson (Clause.any (clause :: clauses))) =
      (countHolding document (ofItems (clause :: clauses))).map fun n => decide (1 ≤ n) := by
  have hread : ofJson (Clause.any (clause :: clauses)) =
      .combination [] [] (ofItems (clause :: clauses)) 1 := by
    have hminimum : (Members.get? "minimum_should_match"
        [("minimum_should_match", .nat 1), ("should", .list (clause :: clauses))]).bind
          Json.unsigned? = some 1 := by
      rw [Members.get?, if_pos rfl, Option.bind_some, Json.unsigned?_nat (by decide)]
    rw [Clause.any, ofJson, ofBody, if_neg (by decide), if_pos rfl]
    simp only [hminimum]
    simp only [Json.nat, listUnder, String.reduceEq, ↓reduceIte, Option.getD_some, List.append_nil]
  rw [hread]
  simp only [holds, allHold, noneHolds, ofItems]
  cases countHolding document (ofJson clause :: ofItems clauses) <;> rfl

theorem holds_mustNot (kind : String) (body : Json) :
    holds document (ofJson (Clause.mustNot (.object [(kind, body)]))) =
      (holds document (ofJson (.object [(kind, body)]))).map (!·) := by
  have hread : ∃ minimum, ofJson (Clause.mustNot (.object [(kind, body)])) =
      .combination [] [ofJson (.object [(kind, body)])] [] minimum := by
    simp [Clause.mustNot, listUnder]
  obtain ⟨minimum, hread⟩ := hread
  rw [hread, holds_combination]
  simp only [allHold, noneHolds]
  cases holds document (ofJson (.object [(kind, body)])) with
  | error e => rfl
  | ok b => cases b <;> rfl

theorem holds_filtered (clause : Json) :
    holds document (ofJson (.object [("filtered", .object [("filter", clause)])])) =
      holds document (ofJson clause) := by
  simp [inner?]

/-! ## Clauses on one field -/

theorem holds_term {field : String} {value : Json} (h : value.member? "value" = none) :
    holds document (ofJson (Clause.onField "term" field value)) =
      .ok ((Document.lookup document field).any (·.equals value)) := by
  simp [Clause.onField, h]

theorem holds_range (field : String) (bounds : Members) :
    holds document (ofJson (Clause.onField "range" field (.object bounds))) =
      .ok ((Document.lookup document field).any fun value => bounds.all (withinBound value)) := by
  simp only [Clause.onField, ofJson, ofBody]
  simp only [String.reduceEq, ↓reduceIte, leaf, onField, Json.object?, holds]
  cases Document.lookup document field <;> rfl

theorem holds_terms (field : String) (values : List Json) :
    holds document (ofJson (Clause.onField "terms" field (.list values))) =
      .ok ((Document.lookup document field).any fun value => values.any (value.equals ·)) := by
  simp [Clause.onField]

theorem holds_existence (field : String) :
    holds document (ofJson (Clause.existence field)) =
      .ok (Document.lookup document field).isSome := by
  simp [Clause.existence, Json.member?, Members.get?, Json.text?]

theorem holds_wildcard (field glob : String) :
    holds document (ofJson (Clause.onField "wildcard" field (.object [("value", .text glob)]))) =
      .ok ((Document.lookup document field).any fun value => Text.glob glob value.plainText) := by
  simp [Clause.onField, Json.member?, Members.get?]

theorem holds_phrase (text : String) :
    holds document (ofJson (Clause.phrase text)) =
      .ok (Document.membersMention (Text.lowercase text).toList document) := by
  simp [Clause.phrase, Json.member?, Members.get?, Json.text?]

/-! ## Clauses that are never refused -/

/-- Every document meets the clause or does not. -/
def Decides (clause : Json) : Prop :=
  ∀ document, ∃ b, holds document (ofJson clause) = .ok b

theorem Decides.all {clauses : List Json} (h : ∀ c ∈ clauses, Decides c) :
    Decides (Clause.all clauses) := by
  intro document
  rw [holds_all]
  induction clauses with
  | nil => exact ⟨true, rfl⟩
  | cons c rest ih =>
      obtain ⟨b, hb⟩ := h c List.mem_cons_self document
      obtain ⟨b', hb'⟩ := ih fun c hc => h c (List.mem_cons_of_mem _ hc)
      cases b with
      | false => exact ⟨false, by simp only [ofItems, allHold, hb]; rfl⟩
      | true => exact ⟨b', by simp only [ofItems, allHold, hb]; exact hb'⟩

theorem Decides.any {clause : Json} {clauses : List Json}
    (h : ∀ c ∈ clause :: clauses, Decides c) : Decides (Clause.any (clause :: clauses)) := by
  intro document
  have hcount : ∀ l : List Json, (∀ c ∈ l, Decides c) →
      ∃ n, countHolding document (ofItems l) = .ok n := by
    intro l hl
    induction l with
    | nil => exact ⟨0, rfl⟩
    | cons c rest ih =>
        obtain ⟨b, hb⟩ := hl c List.mem_cons_self document
        obtain ⟨n, hn⟩ := ih fun c hc => hl c (List.mem_cons_of_mem _ hc)
        exact ⟨_, by simp only [ofItems, countHolding, hb, hn]; rfl⟩
  obtain ⟨n, hn⟩ := hcount _ h
  rw [holds_any, hn]
  exact ⟨_, rfl⟩

theorem Decides.mustNot {kind : String} {body : Json} (h : Decides (.object [(kind, body)])) :
    Decides (Clause.mustNot (.object [(kind, body)])) := by
  intro document
  obtain ⟨b, hb⟩ := h document
  rw [holds_mustNot, hb]
  exact ⟨!b, rfl⟩

end Condition

/-! ## Compiled predicates -/

/-- Whether a regular expression stands somewhere in a predicate. -/
def Expr.hasRegex : Expr → Bool
  | .regex _ => true
  | .filter inner | .quote inner | .not inner => inner.hasRegex
  | .binary _ lhs rhs => lhs.hasRegex || rhs.hasRegex
  | _ => false

/-- A clause of one kind that is never refused. -/
def Clause.Plain (clause : Json) : Prop :=
  (∃ kind body, clause = .object [(kind, body)]) ∧ Condition.Decides clause

namespace Clause.Plain

open Condition

theorem mustNot {clause : Json} (h : Plain clause) : Plain (Clause.mustNot clause) := by
  obtain ⟨⟨kind, body, rfl⟩, hd⟩ := h
  exact ⟨⟨_, _, rfl⟩, hd.mustNot⟩

theorem all {clauses : List Json} (h : ∀ c ∈ clauses, Plain c) : Plain (Clause.all clauses) :=
  ⟨⟨_, _, rfl⟩, .all fun c hc => (h c hc).2⟩

theorem any {clause : Json} {clauses : List Json} (h : ∀ c ∈ clause :: clauses, Plain c) :
    Plain (Clause.any (clause :: clauses)) :=
  ⟨⟨_, _, rfl⟩, .any fun c hc => (h c hc).2⟩

theorem matchAll : Plain Clause.matchAll := ⟨⟨_, _, rfl⟩, fun _ => ⟨true, rfl⟩⟩

theorem matchNone : Plain Clause.matchNone := ⟨⟨_, _, rfl⟩, fun _ => ⟨false, rfl⟩⟩

theorem existence (field : String) : Plain (Clause.existence field) :=
  ⟨⟨_, _, rfl⟩, fun _ => ⟨_, holds_existence field⟩⟩

theorem phrase (text : String) : Plain (Clause.phrase text) :=
  ⟨⟨_, _, rfl⟩, fun _ => ⟨_, holds_phrase text⟩⟩

theorem terms (field : String) (values : List Json) :
    Plain (Clause.onField "terms" field (.list values)) :=
  ⟨⟨_, _, rfl⟩, fun _ => ⟨_, holds_terms field values⟩⟩

theorem term (field : String) (value : Json) : Plain (Clause.onField "term" field value) := by
  refine ⟨⟨_, _, rfl⟩, fun document => ?_⟩
  simp [Clause.onField, ofJson, ofBody, leaf, Condition.onField, holds]

theorem range (field : String) (bounds : Members) :
    Plain (Clause.onField "range" field (.object bounds)) :=
  ⟨⟨_, _, rfl⟩, fun _ => ⟨_, holds_range field bounds⟩⟩

theorem wildcard (field glob : String) :
    Plain (Clause.onField "wildcard" field (.object [("value", .text glob)])) :=
  ⟨⟨_, _, rfl⟩, fun _ => ⟨_, holds_wildcard field glob⟩⟩

theorem equality (negated : Bool) (field : String) (value : Json) :
    Plain (Filter.equality negated field value) := by
  have hboth : ∀ {clause : Json}, Plain clause →
      Plain (if negated = value.isNull then clause else Clause.mustNot clause) := by
    intro clause h
    split
    · exact h
    · exact h.mustNot
  unfold Filter.equality
  cases value with
  | null => exact hboth (existence field)
  | list values => exact hboth (terms field values)
  | _ => exact hboth (term field _)

end Clause.Plain

namespace Filter

theorem plain_of_pattern? {field : String} {rhs : Expr} {clause : Json}
    (h : pattern? field rhs = some clause) (hregex : rhs.hasRegex = false) :
    Clause.Plain clause := by
  unfold pattern? at h
  split at h
  · cases h
    exact .wildcard field _
  · simp [Expr.hasRegex] at hregex
  · cases h

theorem plain_of_ordering? {comparison : Comparison} {flipped : Bool} {field : String}
    {value clause : Json} (h : ordering? comparison flipped field value = some clause) :
    Clause.Plain clause := by
  unfold ordering? at h
  split at h
  · cases h
  · cases h
    exact .range field _

theorem plain_of_comparison? {skip : Option String} {op : Operator} {lhs rhs : Expr}
    {clause : Json} (h : comparison? skip op lhs rhs = some clause)
    (hregex : rhs.hasRegex = false) : Clause.Plain clause := by
  have hlike : ∀ {negated : Bool} {field : String},
      (if skip = some field then some Clause.matchAll
        else do
          let clause ← pattern? field rhs
          pure (if negated then Clause.mustNot clause else clause)) = some clause →
        Clause.Plain clause := by
    intro negated field h
    split at h
    · cases h
      exact .matchAll
    · obtain ⟨inner, hinner, h⟩ := Option.bind_eq_some_iff.mp h
      have hplain := plain_of_pattern? hinner hregex
      cases h
      split
      · exact hplain.mustNot
      · exact hplain
  unfold comparison? at h
  split at h
  · obtain ⟨field, -, h⟩ := Option.bind_eq_some_iff.mp h
    exact @hlike false field (by simpa using h)
  · obtain ⟨field, -, h⟩ := Option.bind_eq_some_iff.mp h
    exact @hlike true field (by simpa using h)
  · obtain ⟨⟨field, value, flipped⟩, -, h⟩ := Option.bind_eq_some_iff.mp h
    simp only at h
    split at h
    · cases h
    · split at h
      · cases h
        exact .matchAll
      · obtain ⟨value, -, h⟩ := Option.bind_eq_some_iff.mp h
        split at h
        · cases h
          exact .equality ..
        · cases h
          exact .equality ..
        · exact plain_of_ordering? h
        · split at h
          · rename_i hlist
            cases h
            cases value <;> simp [Json.isList] at hlist
            exact .terms field _
          · cases h

end Filter

/-- A binary node that joins no predicates is compiled as a comparison, or is at fault. -/
theorem Expr.clause_comparison (skip : Option String) {op : Operator} (lhs rhs : Expr)
    (hand : op ≠ .and) (hor : op ≠ .or) :
    (Expr.binary op lhs rhs).clause skip =
      (Filter.comparison? skip op lhs rhs).elim (.error (.invalidOperator (.binary op lhs rhs)))
        .ok := by
  cases op with
  | and => exact absurd rfl hand
  | or => exact absurd rfl hor
  | _ =>
      simp only [Expr.clause]
      cases Filter.comparison? skip _ lhs rhs <;> rfl

theorem Expr.comparison?_of_clause {skip : Option String} {op : Operator} {lhs rhs : Expr}
    {clause : Json} (hand : op ≠ .and) (hor : op ≠ .or)
    (h : (Expr.binary op lhs rhs).clause skip = .ok clause) :
    Filter.comparison? skip op lhs rhs = some clause := by
  rw [clause_comparison skip lhs rhs hand hor] at h
  cases hclause : Filter.comparison? skip op lhs rhs with
  | none =>
      rw [hclause] at h
      cases h
  | some clause =>
      rw [hclause] at h
      cases h
      rfl

theorem Expr.clause_literal {skip : Option String} {value clause : Json}
    (h : (Expr.literal value).clause skip = .ok clause) :
    value = .bool true ∧ clause = Clause.matchAll ∨
      value = .bool false ∧ clause = Clause.matchNone := by
  unfold Expr.clause at h
  split at h <;> simp_all

/-- What a predicate without regular expressions compiles to. -/
theorem Expr.plain_of_clause {skip : Option String} {e : Expr} {clause : Json}
    (h : e.clause skip = .ok clause) (hregex : e.hasRegex = false) : Clause.Plain clause := by
  induction e generalizing clause with
  | literal value =>
      rcases Expr.clause_literal h with ⟨-, rfl⟩ | ⟨-, rfl⟩
      · exact .matchAll
      · exact .matchNone
  | regex pattern => cases h
  | field name => cases h
  | filter inner ih => exact ih h hregex
  | freeText text =>
      cases h
      exact .phrase text
  | quote inner ih => exact ih h hregex
  | not inner ih =>
      obtain ⟨c, hc, h⟩ := bind_eq_ok.mp h
      cases h
      exact (ih hc hregex).mustNot
  | binary op lhs rhs ihl ihr =>
      simp only [Expr.hasRegex, Bool.or_eq_false_iff] at hregex
      cases op with
      | and =>
          obtain ⟨l, hl, h⟩ := bind_eq_ok.mp h
          obtain ⟨r, hr, h⟩ := bind_eq_ok.mp h
          cases h
          exact .all (by simp [ihl hl hregex.1, ihr hr hregex.2])
      | or =>
          obtain ⟨l, hl, h⟩ := bind_eq_ok.mp h
          obtain ⟨r, hr, h⟩ := bind_eq_ok.mp h
          cases h
          exact .any (by simp [ihl hl hregex.1, ihr hr hregex.2])
      | _ =>
          exact Filter.plain_of_comparison? (comparison?_of_clause (by simp) (by simp) h) hregex.2

/-- A filter compiled from a predicate without regular expressions, or none. -/
def Filter.Compiled (filter : Option Json) : Prop :=
  ∀ clause ∈ filter.toList, ∃ (e : Expr) (skip : Option String),
    e.hasRegex = false ∧ e.clause skip = .ok clause

theorem Filter.Compiled.decides {filter : Option Json} (h : Compiled filter) :
    ∀ clause ∈ filter.toList, Condition.Decides clause := by
  intro clause hclause
  obtain ⟨e, skip, hregex, hcompile⟩ := h clause hclause
  exact (Expr.plain_of_clause hcompile hregex).2

end Sluice
