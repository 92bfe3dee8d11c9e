import Mathlib.Data.List.Forall2
import Sluice.Text.Glob

/-!
Which texts a glob matches. They split into a piece for each character of the pattern, where a star
stands for any run of characters; but where what is left of the text begins with a star itself, the
pattern's star stands for that star alone. Of texts without stars, a glob matches all that split.
-/
namespace Sluice.Text.Glob

/-- Whether a piece of text is what a pattern character stands for. -/
def Stands : Char → List Char → Prop
  | '*', _ => True
  | '?', piece => piece.length = 1
  | c, piece => piece = [c]

/-- Consecutive pieces of a text, one for each pattern character. -/
structure Split (pattern text : List Char) (pieces : List (List Char)) : Prop where
  stands : List.Forall₂ Stands pattern pieces
  whole : pieces.flatten = text

/-- Splitting from the left, where a star that meets a star of the text stands for that one. -/
inductive Meets : List Char → List Char → Prop where
  | done : Meets [] []
  | one {p t : Char} {pattern text : List Char} (heq : p = '?' ∨ p = t)
      (hrest : Meets pattern text) : Meets (p :: pattern) (t :: text)
  | run {pattern text rest : List Char} (hfree : text.head? ≠ some '*') (hend : rest <:+ text)
      (hrest : Meets pattern rest) : Meets ('*' :: pattern) text

/-- Some end of the text meets the pattern. -/
def MeetsEnd (pattern text : List Char) : Prop := ∃ rest, rest <:+ text ∧ Meets pattern rest

variable {pattern text : List Char}

/-! ## Meeting texts -/

theorem meets_nil_iff : Meets pattern [] ↔ pattern.all (· = '*') = true := by
  induction pattern with
  | nil => exact ⟨fun _ => rfl, fun _ => .done⟩
  | cons p pattern ih =>
      rw [List.all_cons, Bool.and_eq_true, ← ih, decide_eq_true_iff]
      constructor
      · intro h
        cases h with
        | run _ hend hrest =>
            rw [List.suffix_nil] at hend
            exact ⟨rfl, hend ▸ hrest⟩
      · rintro ⟨rfl, h⟩
        exact .run (by decide) List.suffix_rfl h

/-- A character that is read as itself is read in no other way. -/
theorem meets_cons_iff {p t : Char} (h : p = '?' ∨ p = t) :
    Meets (p :: pattern) (t :: text) ↔ Meets pattern text := by
  refine ⟨fun hmeets => ?_, .one h⟩
  cases hmeets with
  | one _ hrest => exact hrest
  | run hfree =>
      rcases h with h | rfl
      · cases h
      · exact absurd rfl hfree

/-- A star that meets no star passes over any run. -/
theorem meets_star_iff (h : text.head? ≠ some '*') :
    Meets ('*' :: pattern) text ↔ MeetsEnd pattern text := by
  constructor
  · intro hmeets
    cases hmeets with
    | one heq =>
        rcases heq with heq | rfl
        · cases heq
        · exact absurd rfl h
    | run _ hend hrest => exact ⟨_, hend, hrest⟩
  · rintro ⟨rest, hend, hrest⟩
    exact .run h hend hrest

theorem meetsEnd_cons_iff {t : Char} :
    MeetsEnd pattern (t :: text) ↔ Meets pattern (t :: text) ∨ MeetsEnd pattern text := by
  simp only [MeetsEnd, List.suffix_cons_iff, or_and_right, exists_or, exists_eq_left]

/-! ## The matcher -/

/-- What makes a text match, once an outcome is known. -/
def Outcome.Holds : Outcome → Prop
  | .settled matched => matched = true
  | .star pattern text => MeetsEnd pattern text
  | .stuck => False

theorem meets_iff_advance : Meets pattern text ↔ (advance pattern text).Holds := by
  fun_induction advance pattern text with
  | case1 pattern => exact meets_nil_iff
  | case2 t text =>
      refine ⟨fun h => ?_, False.elim⟩
      cases h
  | case3 p pattern t text heq ih => rw [meets_cons_iff heq, ih]
  | case4 pattern t text hne =>
      rw [not_or] at hne
      exact meets_star_iff fun h => hne.2 (Option.some.inj h).symm
  | case5 p pattern t text hne hstar =>
      refine ⟨fun h => ?_, False.elim⟩
      cases h with
      | one heq => exact hne heq
      | run => exact hstar rfl

/-- Once the matcher gets to the end of the text, or to a star, a later start serves nothing: what
meets an end of the text has, character by character, no more left of it than the matcher has. -/
theorem holds_of_suffix {rest : List Char} (hadvance : advance pattern text ≠ .stuck)
    (hsuffix : rest <:+ text) (h : Meets pattern rest) : (advance pattern text).Holds := by
  fun_induction advance pattern text generalizing rest with
  | case1 pattern =>
      rw [List.suffix_nil] at hsuffix
      exact meets_nil_iff.mp (hsuffix ▸ h)
  | case2 t text => exact absurd rfl hadvance
  | case3 p pattern t text heq ih =>
      rcases List.suffix_cons_iff.mp hsuffix with rfl | hlater
      · exact ih hadvance List.suffix_rfl ((meets_cons_iff heq).mp h)
      · cases h with
        | one _ hrest => exact ih hadvance ((List.suffix_cons _ _).trans hlater) hrest
        | run _ hend hrest => exact ih hadvance (hend.trans hlater) hrest
  | case4 pattern t text hne =>
      cases h with
      | one _ hrest => exact ⟨_, (List.suffix_cons _ _).trans hsuffix, hrest⟩
      | run _ hend hrest => exact ⟨_, hend.trans hsuffix, hrest⟩
  | case5 p pattern t text hne hstar => exact absurd rfl hadvance

theorem meetsEnd_iff_advance (h : advance pattern text ≠ .stuck) :
    MeetsEnd pattern text ↔ (advance pattern text).Holds :=
  ⟨fun ⟨_, hend, hrest⟩ => holds_of_suffix h hend hrest,
    fun hholds => ⟨text, List.suffix_rfl, meets_iff_advance.mpr hholds⟩⟩

theorem meetsEnd_iff_extend : MeetsEnd pattern text ↔ (extend pattern text).Holds := by
  fun_induction extend pattern text with
  | case1 =>
      rw [← meets_iff_advance]
      simp only [MeetsEnd, List.suffix_nil, exists_eq_left]
  | case2 t text hstuck ih =>
      have hnot : ¬ Meets pattern (t :: text) := by
        rw [meets_iff_advance, hstuck]
        exact id
      rw [meetsEnd_cons_iff, ih, or_iff_right hnot]
  | case3 t text hne => exact meetsEnd_iff_advance hne

theorem afterStar_iff : afterStar pattern text = true ↔ MeetsEnd pattern text := by
  fun_induction afterStar pattern text with
  | case1 pattern text matched h => rw [meetsEnd_iff_extend, h, Outcome.Holds]
  | case2 pattern text pattern' text' h ih =>
      rw [ih, @meetsEnd_iff_extend pattern text, h, Outcome.Holds]
  | case3 pattern text h => simp [meetsEnd_iff_extend, h, Outcome.Holds]

theorem glob_iff_meets (pattern text : String) :
    glob pattern text = true ↔ Meets pattern.toList text.toList := by
  rw [meets_iff_advance, glob]
  cases advance pattern.toList text.toList with
  | settled matched => exact Iff.rfl
  | star pattern text => exact afterStar_iff
  | stuck => exact ⟨Bool.noConfusion, False.elim⟩

/-! ## Splits -/

theorem stands_one {p t : Char} (h : p = '?' ∨ p = t) : Stands p [t] := by
  rcases h with rfl | rfl
  · rfl
  · unfold Stands
    split
    · trivial
    · rfl
    · rfl

theorem Meets.exists_split (h : Meets pattern text) : ∃ pieces, Split pattern text pieces := by
  induction h with
  | done => exact ⟨[], .nil, rfl⟩
  | @one p t pattern text heq _ ih =>
      obtain ⟨pieces, hstands, rfl⟩ := ih
      exact ⟨[t] :: pieces, .cons (stands_one heq) hstands, rfl⟩
  | @run pattern text rest _ hend _ ih =>
      obtain ⟨run, rfl⟩ := hend
      obtain ⟨pieces, hstands, rfl⟩ := ih
      exact ⟨run :: pieces, .cons trivial hstands, rfl⟩

theorem Split.meets {pieces : List (List Char)} (h : Split pattern text pieces)
    (hfree : '*' ∉ text) : Meets pattern text := by
  obtain ⟨hstands, rfl⟩ := h
  induction hstands with
  | nil => exact .done
  | @cons p piece pattern pieces hpiece _ ih =>
      rw [List.flatten_cons] at hfree ⊢
      have hrest := ih fun hmem => hfree (List.mem_append_right _ hmem)
      unfold Stands at hpiece
      split at hpiece
      · exact .run (fun hhead => hfree (List.mem_of_mem_head? hhead)) (List.suffix_append _ _) hrest
      · obtain ⟨t, rfl⟩ := List.length_eq_one_iff.mp hpiece
        exact .one (.inl rfl) hrest
      · subst hpiece
        exact .one (.inr rfl) hrest

/-- A glob matches what meets its pattern, which is always something that splits, and of texts
without stars all that splits. -/
theorem glob_splits (pattern text : String) :
    (glob pattern text = true ↔ Meets pattern.toList text.toList) ∧
      (glob pattern text = true → ∃ pieces, Split pattern.toList text.toList pieces) ∧
      ('*' ∉ text.toList →
        (glob pattern text = true ↔ ∃ pieces, Split pattern.toList text.toList pieces)) := by
  have hmeets := glob_iff_meets pattern text
  have hsplit := fun h => (hmeets.mp h).exists_split
  exact ⟨hmeets, hsplit, fun hfree =>
    ⟨hsplit, fun ⟨_, hpieces⟩ => hmeets.mpr (hpieces.meets hfree)⟩⟩

/-- A star does not pass over a run that begins with a star. -/
theorem glob_star_star :
    ¬ ∀ pattern text, glob pattern text = true ↔
      ∃ pieces, Split pattern.toList text.toList pieces := by
  intro h
  have hglob : glob "*" "*a" = false := by decide
  have hpieces : Split ['*'] ['*', 'a'] [['*', 'a']] := ⟨.cons trivial .nil, rfl⟩
  rw [(h "*" "*a").mpr ⟨_, hpieces⟩] at hglob
  cases hglob

end Sluice.Text.Glob
