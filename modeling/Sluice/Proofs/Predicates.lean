import Mathlib
import Sluice.Proofs.Clauses

/-!
What predicates say of documents. The clause that a predicate compiles to holds of a document where
the predicate does, and the store never refuses it.
-/
namespace Sluice

theorem Text.containsRun_eq (needle text : List Char) :
    containsRun needle text = decide (needle <:+: text) := by
  induction text with
  | nil => cases needle <;> simp [containsRun]
  | cons c cs ih =>
      rw [Bool.eq_iff_iff, containsRun, ih, Bool.or_eq_true, decide_eq_true_iff, decide_eq_true_iff,
        List.infix_cons_iff, List.isPrefixOf_iff_prefix]

namespace Document

/-! ## Free text -/

mutual

/-- The texts in a value, at any depth. -/
def textsIn : Json → List String
  | .text s => [s]
  | .list items => textsInItems items
  | .object members => textsInMembers members
  | _ => []

def textsInItems : List Json → List String
  | [] => []
  | x :: xs => textsIn x ++ textsInItems xs

def textsInMembers : List (String × Json) → List String
  | [] => []
  | (_, x) :: rest => textsIn x ++ textsInMembers rest

end

/-- Whether a text stands in another one, letter case aside. -/
def occursIn (text s : String) : Bool :=
  decide ((Text.lowercase text).toList <:+: (Text.lowercase s).toList)

mutual

theorem mentions_lowercase (text : String) :
    (value : Json) → mentions (Text.lowercase text).toList value =
      (textsIn value).any (occursIn text)
  | .text s => by
      rw [mentions, Text.containsRun_eq, textsIn, List.any_cons, List.any_nil, Bool.or_false,
        occursIn]
  | .list items => by rw [mentions, textsIn, itemsMention_lowercase]
  | .object members => by rw [mentions, textsIn, membersMention_lowercase]
  | .null | .bool _ | .number _ => rfl

theorem itemsMention_lowercase (text : String) :
    (items : List Json) → itemsMention (Text.lowercase text).toList items =
      (textsInItems items).any (occursIn text)
  | [] => rfl
  | x :: xs => by
      rw [itemsMention, textsInItems, List.any_append, mentions_lowercase, itemsMention_lowercase]

theorem membersMention_lowercase (text : String) :
    (members : List (String × Json)) → membersMention (Text.lowercase text).toList members =
      (textsInMembers members).any (occursIn text)
  | [] => rfl
  | (_, x) :: rest => by
      rw [membersMention, textsInMembers, List.any_append, mentions_lowercase,
        membersMention_lowercase]

end

end Document

/-! ## Meaning -/

/-- The orders of a value and a bound that a comparison admits. -/
def Comparison.admits : Comparison → Ordering → Bool
  | .lt => Ordering.isLT
  | .gt => Ordering.isGT
  | .lte => Ordering.isLE
  | .gte => Ordering.isGE

namespace Operator

/-- Whether what is found under a field equals a literal: null is nothing at all, and a list is any
of its values. -/
def equates (found : Option Json) : Json → Bool
  | .null => found.isNone
  | .list values => found.any fun value => values.any (value.equals ·)
  | literal => found.any (·.equals literal)

/-- The operator that relates its sides, once exchanged, as they were. -/
def mirrored : Operator → Operator
  | .order comparison => .order comparison.flip
  | op => op

/-- Whether an operator relates what is found under a field, on its left, to a literal. -/
def relates (found : Option Json) : Operator → Json → Bool
  | .eq, literal => equates found literal
  | .ne, literal => !equates found literal
  | .order comparison, bound => found.any fun value => (value.order? bound).any comparison.admits
  | .like, .text glob => found.any fun value => Text.glob glob value.plainText
  | .notLike, .text glob => !found.any fun value => Text.glob glob value.plainText
  | .isIn, .list values => found.any fun value => values.any (value.equals ·)
  | _, _ => false

end Operator

namespace Expr

/-- Whether a comparison of a field and a literal, on either side, holds of a document. -/
def compares (document : Members) (op : Operator) (lhs rhs : Expr) : Bool :=
  match lhs.field?, rhs.literal?, lhs.literal?, rhs.field? with
  | some name, some value, _, _ => op.relates (Document.lookup document name) value
  | _, _, some value, some name => op.mirrored.relates (Document.lookup document name) value
  | _, _, _, _ => false

/-- Whether a predicate holds of a document. -/
def holds (document : Members) : Expr → Bool
  | .literal (.bool b) => b
  | .filter inner | .quote inner => inner.holds document
  | .not inner => !inner.holds document
  | .binary .and lhs rhs => lhs.holds document && rhs.holds document
  | .binary .or lhs rhs => lhs.holds document || rhs.holds document
  | .binary op lhs rhs => compares document op lhs rhs
  | .freeText text => (Document.textsInMembers document).any (Document.occursIn text)
  | _ => false

/-- Whether an object stands as a literal somewhere in a predicate. -/
def hasObject : Expr → Bool
  | .literal (.object _) => true
  | .filter inner | .quote inner | .not inner => inner.hasObject
  | .binary _ lhs rhs => lhs.hasObject || rhs.hasObject
  | _ => false

end Expr

/-! ## Clauses -/

namespace Condition

/-- The store takes a clause, and `b` says whether a document meets it. -/
def Asks (document : Members) (clause : Json) (b : Bool) : Prop :=
  (∃ kind body, clause = .object [(kind, body)]) ∧ holds document (ofJson clause) = .ok b

namespace Asks

variable {document : Members} {clause left right : Json} {a b : Bool}

theorem mustNot (h : Asks document clause b) : Asks document (Clause.mustNot clause) !b := by
  obtain ⟨⟨kind, body, rfl⟩, hb⟩ := h
  refine ⟨⟨_, _, rfl⟩, ?_⟩
  rw [holds_mustNot, hb]
  rfl

theorem all (hl : Asks document left a) (hr : Asks document right b) :
    Asks document (Clause.all [left, right]) (a && b) := by
  refine ⟨⟨_, _, rfl⟩, ?_⟩
  rw [holds_all]
  simp only [ofItems, allHold, hl.2, hr.2]
  cases a <;> cases b <;> rfl

theorem any (hl : Asks document left a) (hr : Asks document right b) :
    Asks document (Clause.any [left, right]) (a || b) := by
  refine ⟨⟨_, _, rfl⟩, ?_⟩
  rw [holds_any]
  simp only [ofItems, countHolding, hl.2, hr.2]
  cases a <;> cases b <;> rfl

theorem negatedIf (negated : Bool) (h : Asks document clause b) :
    Asks document (if negated then Clause.mustNot clause else clause) (b != negated) := by
  cases negated with
  | false => simpa using h
  | true => simpa using h.mustNot

end Asks

/-- The bound of a range asks for the orders that its comparison admits. -/
theorem withinBound_rangeKey (value bound : Json) (comparison : Comparison) :
    withinBound value (Filter.rangeKey comparison, bound) =
      (value.order? bound).any comparison.admits := by
  unfold withinBound
  cases comparison with
  | lt | gt | lte | gte =>
      simp only [Filter.rangeKey]
      cases value.order? bound with
      | none => rfl
      | some order => cases order <;> rfl

end Condition

namespace Filter

open Condition

variable {document : Members} {name : String} {literal clause : Json}

theorem asks_equality (negated : Bool) (name : String) (h : literal.object? = none) :
    Asks document (equality negated name literal)
      (Operator.equates (Document.lookup document name) literal != negated) := by
  have hvalue : ∀ value : Json, value.member? "value" = none →
      Asks document (if negated then Clause.mustNot (Clause.onField "term" name value)
          else Clause.onField "term" name value)
        ((Document.lookup document name).any (·.equals value) != negated) :=
    fun value hvalue => .negatedIf negated ⟨⟨_, _, rfl⟩, holds_term hvalue⟩
  cases literal with
  | null =>
      -- To equal null is not to exist, so the clause is negated where the comparison is not.
      have hexists : Asks document (Clause.existence name)
          (Document.lookup document name).isSome := ⟨⟨_, _, rfl⟩, holds_existence name⟩
      have hnone := hexists.negatedIf !negated
      cases hfound : Document.lookup document name <;> cases negated <;>
        simpa [equality, Operator.equates, hfound, Json.isNull] using hnone
  | list values =>
      have hlist : Asks document (Clause.onField "terms" name (.list values))
          ((Document.lookup document name).any fun value => values.any (value.equals ·)) :=
        ⟨⟨_, _, rfl⟩, holds_terms name values⟩
      have hlist := hlist.negatedIf negated
      cases negated <;> simpa [equality, Operator.equates, Json.isNull] using hlist
  | object members => cases h
  | bool b =>
      have hbool := hvalue (.bool b) rfl
      cases negated <;> simpa [equality, Operator.equates, Json.isNull] using hbool
  | number n =>
      have hnumber := hvalue (.number n) rfl
      cases negated <;> simpa [equality, Operator.equates, Json.isNull] using hnumber
  | text s =>
      have htext := hvalue (.text s) rfl
      cases negated <;> simpa [equality, Operator.equates, Json.isNull] using htext

theorem asks_ordering? {comparison : Comparison} {flipped : Bool}
    (h : ordering? comparison flipped name literal = some clause) :
    Asks document clause ((Document.lookup document name).any fun value =>
      (value.order? literal).any (if flipped then comparison.flip else comparison).admits) := by
  unfold ordering? at h
  split at h
  · cases h
  · cases h
    refine ⟨⟨_, _, rfl⟩, ?_⟩
    rw [holds_range]
    simp only [List.all_cons, List.all_nil, Bool.and_true, withinBound_rangeKey]

theorem asks_pattern? {rhs : Expr} (h : pattern? name rhs = some clause)
    (hregex : rhs.hasRegex = false) :
    ∃ glob, rhs = .literal (.text glob) ∧ Asks document clause
      ((Document.lookup document name).any fun value => Text.glob glob value.plainText) := by
  unfold pattern? at h
  split at h
  · rename_i glob
    cases h
    exact ⟨glob, rfl, ⟨_, _, rfl⟩, holds_wildcard name glob⟩
  · cases hregex
  · cases h

theorem compares_of_sides? {op : Operator} {lhs rhs value : Expr} {flipped : Bool}
    (h : sides? lhs rhs = some (name, value, flipped)) (hvalue : value.literal? = some literal) :
    Expr.compares document op lhs rhs =
      (if flipped then op.mirrored else op).relates (Document.lookup document name) literal := by
  unfold sides? at h
  split at h
  · rename_i hlhs hrhs
    cases h
    simp only [Expr.compares, hlhs, hvalue, Bool.false_eq_true, ↓reduceIte]
  · rename_i hlhs hrhs
    cases h
    simp only [Expr.compares, hlhs, hrhs, hvalue, ↓reduceIte]
  · cases h

theorem hasObject_of_sides? {lhs rhs value : Expr} {flipped : Bool}
    (h : sides? lhs rhs = some (name, value, flipped))
    (hobject : (lhs.hasObject || rhs.hasObject) = false) : value.hasObject = false := by
  obtain ⟨hl, hr⟩ := Bool.or_eq_false_iff.mp hobject
  unfold sides? at h
  split at h <;> cases h
  · exact hr
  · exact hl

theorem object?_of_literal? {value : Expr} (h : value.literal? = some literal)
    (hobject : value.hasObject = false) : literal.object? = none := by
  cases value <;> cases h
  cases literal <;> first | rfl | cases hobject

theorem asks_like {negated : Bool} {lhs rhs : Expr} (h : (do
      let name ← lhs.field?
      if none = some name then return Clause.matchAll
      let clause ← pattern? name rhs
      return if negated then Clause.mustNot clause else clause) = some clause)
    (hregex : rhs.hasRegex = false) :
    Asks document clause
      (Expr.compares document (if negated then .notLike else .like) lhs rhs) := by
  obtain ⟨name, hname, h⟩ := Option.bind_eq_some_iff.mp h
  obtain ⟨inner, hinner, h⟩ := Option.bind_eq_some_iff.mp h
  cases h
  obtain ⟨glob, rfl, hasks⟩ := asks_pattern? hinner hregex
  have hasks := hasks.negatedIf negated
  cases negated <;> simpa [Expr.compares, hname, Expr.literal?, Operator.relates] using hasks

theorem asks_comparison? {op : Operator} {lhs rhs : Expr}
    (h : comparison? none op lhs rhs = some clause) (hop : op ≠ .and ∧ op ≠ .or)
    (hregex : rhs.hasRegex = false) (hobject : (lhs.hasObject || rhs.hasObject) = false) :
    Asks document clause (Expr.compares document op lhs rhs) := by
  unfold comparison? at h
  split at h
  · exact @asks_like document clause false lhs rhs h hregex
  · exact @asks_like document clause true lhs rhs h hregex
  · obtain ⟨⟨name, value, flipped⟩, hsides, h⟩ := Option.bind_eq_some_iff.mp h
    simp only [reduceCtorEq, ↓reduceIte] at h
    split at h
    · cases h
    · rename_i hin
      obtain ⟨literal, hliteral, h⟩ := Option.bind_eq_some_iff.mp h
      have hplain := object?_of_literal? hliteral (hasObject_of_sides? hsides hobject)
      rw [compares_of_sides? hsides hliteral]
      cases op with
      | and => exact absurd rfl hop.1
      | or => exact absurd rfl hop.2
      | like | notLike => contradiction
      | eq =>
          cases h
          have hasks := @asks_equality document literal false name hplain
          cases flipped <;> simpa [Operator.mirrored, Operator.relates] using hasks
      | ne =>
          cases h
          have hasks := @asks_equality document literal true name hplain
          cases flipped <;> simpa [Operator.mirrored, Operator.relates] using hasks
      | order comparison =>
          have hasks := @asks_ordering? document name literal clause comparison flipped h
          cases flipped <;> simpa [Operator.mirrored, Operator.relates] using hasks
      | isIn =>
          have hflipped : flipped = false := by simpa using hin
          subst hflipped
          cases literal with
          | list values =>
              cases h
              exact ⟨⟨_, _, rfl⟩, holds_terms name values⟩
          | _ => cases h

end Filter

/-- The clause of a predicate asks what the predicate says, whatever the document. -/
theorem Expr.asks_clause {e : Expr} {clause : Json} (h : e.clause none = .ok clause)
    (hregex : e.hasRegex = false) (hobject : e.hasObject = false) (document : Members) :
    Condition.Asks document clause (e.holds document) := by
  induction e generalizing clause with
  | literal value =>
      rcases Expr.clause_literal h with ⟨rfl, rfl⟩ | ⟨rfl, rfl⟩
      · exact ⟨⟨_, _, rfl⟩, rfl⟩
      · exact ⟨⟨_, _, rfl⟩, rfl⟩
  | regex pattern => cases h
  | field name => cases h
  | filter inner ih => exact ih h hregex hobject
  | freeText text =>
      cases h
      refine ⟨⟨_, _, rfl⟩, ?_⟩
      rw [Condition.holds_phrase, Document.membersMention_lowercase, Expr.holds]
  | quote inner ih => exact ih h hregex hobject
  | not inner ih =>
      obtain ⟨c, hc, h⟩ := bind_eq_ok.mp h
      cases h
      exact (ih hc hregex hobject).mustNot
  | binary op lhs rhs ihl ihr =>
      obtain ⟨hregexl, hregexr⟩ := Bool.or_eq_false_iff.mp hregex
      obtain ⟨hobjectl, hobjectr⟩ := Bool.or_eq_false_iff.mp hobject
      cases op with
      | and =>
          obtain ⟨l, hl, h⟩ := bind_eq_ok.mp h
          obtain ⟨r, hr, h⟩ := bind_eq_ok.mp h
          cases h
          exact (ihl hl hregexl hobjectl).all (ihr hr hregexr hobjectr)
      | or =>
          obtain ⟨l, hl, h⟩ := bind_eq_ok.mp h
          obtain ⟨r, hr, h⟩ := bind_eq_ok.mp h
          cases h
          exact (ihl hl hregexl hobjectl).any (ihr hr hregexr hobjectr)
      | _ =>
          exact Filter.asks_comparison? (Expr.comparison?_of_clause (by simp) (by simp) h)
            (by simp) hregexr hobject

/-- The store never refuses the clause of a predicate, and a document meets it exactly where the
predicate holds of the document. -/
theorem Expr.holds_ofJson_clause {e : Expr} {clause : Json} (h : e.clause none = .ok clause)
    (hregex : e.hasRegex = false) (hobject : e.hasObject = false) (document : Members) :
    Condition.holds document (Condition.ofJson clause) = .ok (e.holds document) :=
  (e.asks_clause h hregex hobject document).2

/-- A bound on the left under a negation, a field that is missing, and a glob that matches no
value. -/
theorem Expr.holds_ofJson_clause_negated :
    let e : Expr := .binary .and
      (.not (.binary (.order .lte) (.literal (.nat 500)) (.field "code")))
      (.binary .or (.binary .ne (.quote (.field "user")) (.literal .null))
        (.binary .notLike (.field "path") (.literal (.text "/tmp/*"))))
    let document : Members := [("code", .nat 404), ("path", .text "/var/log")]
    ∃ clause, e.clause none = .ok clause ∧ e.hasRegex = false ∧ e.hasObject = false ∧
      Condition.holds document (Condition.ofJson clause) = .ok (e.holds document) ∧
      e.holds document = true :=
  ⟨_, rfl, rfl, rfl, holds_ofJson_clause rfl rfl rfl _, by decide +kernel⟩

end Sluice
