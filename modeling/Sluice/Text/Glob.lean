/-!
Glob patterns: a star stands for any run of characters, a question mark for exactly one, any other
character for itself. A pattern character that equals the character of the text is taken for itself
before it is taken for a star. Only the last star met is ever extended.
-/
namespace Sluice.Text.Glob

/-- How far a pattern gets against a text without extending a star. -/
inductive Outcome where
  | settled (matched : Bool)
  | star (pattern text : List Char)
  | stuck

/-- Matches character by character, up to the end of the text or the next star. -/
def advance : List Char → List Char → Outcome
  | pattern, [] => .settled (pattern.all (· = '*'))
  | [], _ :: _ => .stuck
  | p :: pattern, t :: text =>
    if p = '?' ∨ p = t then advance pattern text
    else if p = '*' then .star pattern (t :: text)
    else .stuck

/-- The outcome of the pattern after a star, which swallows as little of the text as it can. -/
def extend (pattern : List Char) : List Char → Outcome
  | [] => advance pattern []
  | t :: text =>
    match advance pattern (t :: text) with
    | .stuck => extend pattern text
    | outcome => outcome

theorem length_lt_of_advance_eq_star {pattern text pattern' text' : List Char}
    (h : advance pattern text = .star pattern' text') : pattern'.length < pattern.length := by
  fun_induction advance pattern text with
  | case1 => simp at h
  | case2 => simp at h
  | case3 p pattern t text _ ih => exact Nat.lt_succ_of_lt (ih h)
  | case4 =>
    simp only [Outcome.star.injEq] at h
    simp [h.1]
  | case5 => simp at h

theorem length_lt_of_extend_eq_star {pattern text pattern' text' : List Char}
    (h : extend pattern text = .star pattern' text') : pattern'.length < pattern.length := by
  induction text with
  | nil => exact length_lt_of_advance_eq_star h
  | cons t text ih =>
    simp only [extend] at h
    split at h
    · exact ih h
    · exact length_lt_of_advance_eq_star h

/-- Matches what follows a star. -/
def afterStar (pattern text : List Char) : Bool :=
  match _h : extend pattern text with
  | .settled matched => matched
  | .star pattern' text' => afterStar pattern' text'
  | .stuck => false
termination_by pattern.length
decreasing_by exact length_lt_of_extend_eq_star _h

end Glob

/-- Whether the whole of `text` matches `pattern`. -/
def glob (pattern text : String) : Bool :=
  match Glob.advance pattern.toList text.toList with
  | .settled matched => matched
  | .star pattern' text' => Glob.afterStar pattern' text'
  | .stuck => false

end Sluice.Text
