import Sluice.Proofs.JsonText
import Sluice.Session

/-!
What reads make of a store's rejections: a missing index is nothing to find, and every other
rejection of a search ends the read.
-/
namespace Sluice

namespace Fault

/-! ## Markers in reasons -/

theorem after?_append (marker rest : List Char) : after? marker (marker ++ rest) = some rest := by
  cases marker with
  | nil => cases rest <;> simp [after?]
  | cons c marker =>
      have : (c :: marker).isPrefixOf (c :: marker ++ rest) = true :=
        List.isPrefixOf_iff_prefix.mpr (List.prefix_append _ _)
      rw [List.cons_append] at this ⊢
      rw [after?, if_pos this, ← List.cons_append, List.drop_left]

theorem after?_singleton_append {c : Char} {gap : List Char} (h : c ∉ gap) (rest : List Char) :
    after? [c] (gap ++ c :: rest) = some rest := by
  induction gap with
  | nil => exact after?_append [c] rest
  | cons d gap ih =>
      have hne : c ≠ d := fun he => h (he ▸ List.mem_cons_self)
      have hrest := ih fun hmem => h (List.mem_cons_of_mem _ hmem)
      simp [after?, List.isPrefixOf, hne, hrest]

/-- What stands behind a marker has all characters of the marker before it. -/
theorem subset_of_after? {marker cs rest : List Char} (h : after? marker cs = some rest) :
    marker ⊆ cs := by
  induction cs with
  | nil =>
      simp only [after?] at h
      split at h
      · rename_i hnil
        simp [List.isEmpty_iff.mp hnil]
      · cases h
  | cons c cs ih =>
      simp only [after?] at h
      split at h
      · rename_i hprefix
        exact (List.isPrefixOf_iff_prefix.mp hprefix).subset
      · exact List.subset_cons_of_subset _ (ih h)

theorem bracketedAfter?_eq {marker gap inner rest : String} (hgap : '[' ∉ gap.toList)
    (hinner : ']' ∉ inner.toList) :
    bracketedAfter? (marker ++ (gap ++ ("[" ++ (inner ++ ("]" ++ rest))))) marker = some inner := by
  have hcontains : (inner.toList ++ ']' :: rest.toList).contains ']' = true := by simp
  have htake : (inner.toList ++ ']' :: rest.toList).takeWhile (· ≠ ']') = inner.toList := by
    rw [List.takeWhile_append_of_pos]
    · simp
    · intro c hc
      simp only [ne_eq, decide_not, Bool.not_eq_eq_eq_not, Bool.not_true, decide_eq_false_iff_not]
      exact fun he => hinner (he ▸ hc)
  have hopen : "[".toList = ['['] := rfl
  have hclose : "]".toList = [']'] := rfl
  simp only [bracketedAfter?, String.toList_append, hopen, hclose, List.singleton_append,
    after?_append, after?_singleton_append hgap, hcontains, htake, bind, Option.bind, ↓reduceIte,
    pure, String.ofList_toList]

theorem wordOf?_toString {n : Nat} (h : n < Word.unsignedLimit) : wordOf? (toString n) = some n := by
  have hdigit : ∀ c ∈ Nat.toDigits 10 n, c.isDigit = true :=
    fun c hc => Nat.isDigit_of_mem_toDigits (by decide) (by decide) hc
  have hplus : ∀ cs, Nat.toDigits 10 n ≠ '+' :: cs := by
    intro cs hcs
    exact absurd (hdigit '+' (hcs ▸ List.mem_cons_self)) (by decide)
  have hchars : (toString n).toList = Nat.toDigits 10 n := by
    rw [Nat.toString_eq_repr, Nat.toList_repr]
  unfold wordOf?
  rw [hchars]
  split
  · exact absurd (by assumption) (hplus _)
  · simp only [Nat.ofDigitChars_ten_toDigits]
    exact if_pos ⟨Nat.toDigits_ne_nil, List.all_eq_true.mpr hdigit, h⟩

end Fault

namespace Rejection

/-! ## Payloads -/

/-- The cause that a rejection's payload reports. -/
def cause (r : Rejection) : Fault.Cause where
  kind := r.kind
  reason := r.reason
  index := match r with
    | .noSuchIndex name => some name
    | _ => none

theorem fitsSigned_status (r : Rejection) : Word.FitsSigned r.status := by
  have h : r.status = 404 ∨ r.status = 400 := by
    unfold status
    split
    · exact .inl rfl
    · exact .inr rfl
  rcases h with h | h <;> rw [h] <;> decide

theorem legible_payload (r : Rejection) : r.payload.Legible := by
  have hstatus := r.fitsSigned_status
  unfold payload
  split <;>
    simp only [Json.Legible, Json.LegibleMembers, Json.LegibleItems, Json.nat, hstatus,
      List.nil_append, List.cons_append, List.map_cons, List.map_nil, List.forall_mem_cons,
      List.not_mem_nil, false_implies, implies_true, String.reduceLT, and_self, true_or]

theorem depth_payload_le (r : Rejection) : r.payload.depth ≤ Json.maxDepth := by
  unfold payload
  split <;> simp [Json.depth, Json.depthMembers, Json.depthItems, Json.nat, Json.maxDepth]

theorem parse?_payload (r : Rejection) : Json.parse? r.payload.render = some r.payload :=
  Json.parse?_render r.legible_payload r.depth_payload_le

theorem ofBody_payload (r : Rejection) :
    Fault.ofBody r.payload.render = Fault.ofCauses [r.cause, r.cause] := by
  rw [Fault.ofBody, parse?_payload]
  cases r <;> rfl

/-! ## What reads make of them -/

theorem absorb_noSuchIndex (name : String) (status : Nat) :
    Store.absorb (.refused status (noSuchIndex name).payload.render) = .ok Response.empty := by
  have hfault : Fault.ofCauses [(noSuchIndex name).cause, (noSuchIndex name).cause] =
      .missingIndex name := rfl
  simp only [Store.absorb, StoreError.fault, ofBody_payload, hfault]

theorem absorb_windowTooLarge {limit : Nat} (h : limit < Word.unsignedLimit) (asked status : Nat) :
    Store.absorb (.refused status (windowTooLarge limit asked).payload.render) =
      .error (.windowOverflow limit) := by
  have hlead : "Result window is too large, from + size must be less than or equal to: [" =
      "Result window is too large" ++ (", from + size must be less than or equal to: " ++ "[") := by
    decide
  have hclose : "] but was [" = "]" ++ " but was [" := by decide
  have hdigits : ']' ∉ (toString limit).toList := by
    intro hmem
    rw [Nat.toString_eq_repr, Nat.toList_repr] at hmem
    have : ']'.isDigit = true := Nat.isDigit_of_mem_toDigits (by decide) (by decide) hmem
    exact absurd this (by decide)
  have hreason : (windowTooLarge limit asked).reason = "Result window is too large" ++
      (", from + size must be less than or equal to: " ++ ("[" ++ (toString limit ++ ("]" ++
        (" but was [" ++ (toString asked ++
          "]. See the scroll api for a more efficient way to request large data sets.")))))) := by
    unfold reason
    rw [hlead, hclose]
    simp only [String.append_assoc]
  have hmarker : Fault.bracketedAfter? (windowTooLarge limit asked).cause.reason
      "Result window is too large" = some (toString limit) := by
    have hcause : (windowTooLarge limit asked).cause.reason =
        (windowTooLarge limit asked).reason := rfl
    rw [hcause, hreason]
    exact Fault.bracketedAfter?_eq (by simp) hdigits
  have hmissing : Fault.missingIndex? [(windowTooLarge limit asked).cause,
      (windowTooLarge limit asked).cause] = none := by
    simp [Fault.missingIndex?, cause, kind]
  have hwindow : Fault.windowOverflow? [(windowTooLarge limit asked).cause,
      (windowTooLarge limit asked).cause] = some (.windowOverflow limit) := by
    rw [Fault.windowOverflow?, List.findSome?_cons, hmarker, Option.bind_some,
      Fault.wordOf?_toString h]
    rfl
  simp only [Store.absorb, StoreError.fault, ofBody_payload, Fault.ofCauses, hmissing, hwindow,
    Option.none_or, Option.some_or, Option.getD_some]

/-- A rejected clause or aggregation ends the read, as long as its reason has none of the letters
that open the markers of faults. -/
theorem absorb_parsing {r : Rejection} (hkind : r.kind = "parsing_exception")
    (hreason : ∀ c ∈ ['N', 'R', 'S', 'y'], c ∉ r.reason.toList) (status : Nat) :
    Store.absorb (.refused status r.payload.render) =
      .error (.store (.refused status r.payload.render)) := by
  have hcauseKind : r.cause.kind = "parsing_exception" := hkind
  have hafter : ∀ marker : String, ∀ c ∈ ['N', 'R', 'S', 'y'], c ∈ marker.toList →
      Fault.after? marker.toList r.cause.reason.toList = none := by
    intro marker c hc hmarker
    cases hfound : Fault.after? marker.toList r.cause.reason.toList with
    | none => rfl
    | some rest => exact absurd (Fault.subset_of_after? hfound hmarker) (hreason c hc)
  have hshard := hafter "primary shard is not active" 'y' (by decide) (by decide)
  have hwide := hafter "Result window is too large" 'R' (by decide) (by decide)
  have hmapping := hafter "No mapping found for" 'N' (by decide) (by decide)
  have hdata := hafter "Set fielddata=true on" 'S' (by decide) (by decide)
  have hmissing : Fault.missingIndex? [r.cause, r.cause] = none := by
    simp [Fault.missingIndex?, hcauseKind]
  have hnew : Fault.newIndex? [r.cause, r.cause] = none := by
    simp only [Fault.newIndex?, List.any_cons, List.any_nil, hcauseKind, hshard]
    rfl
  have hwindow : Fault.windowOverflow? [r.cause, r.cause] = none := by
    simp only [Fault.windowOverflow?, Fault.bracketedAfter?, List.findSome?_cons, hwide]
    rfl
  have hfield : Fault.missingField? [r.cause, r.cause] = none := by
    simp only [Fault.missingField?, Fault.bracketedAfter?, List.findSome?_cons, hmapping, hdata]
    rfl
  simp only [Store.absorb, StoreError.fault, ofBody_payload, Fault.ofCauses, hmissing, hnew,
    hwindow, hfield]
  rfl

end Rejection
end Sluice
