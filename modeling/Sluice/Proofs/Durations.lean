import Sluice.Proofs.Outcomes
import Sluice.Time.Duration

/-!
Widths in milliseconds, as they are written for a store and read by it. A width comes back unchanged
or is refused.
-/
namespace Sluice.Duration

open Reader

/-! ## Digits -/

theorem ofDigitChars_ge (digits : List Char) (n : Nat) : n ≤ Nat.ofDigitChars 10 digits n := by
  induction digits generalizing n with
  | nil => exact Nat.le_refl n
  | cons c digits ih =>
      rw [Nat.ofDigitChars_cons]
      exact Nat.le_trans (by omega) (ih _)

/-- The reader takes the digits of a number one by one, until the number is no word. -/
theorem foldlM_digits {digits : List Char} (h : ∀ c ∈ digits, c.isDigit = true) {number : Nat}
    (hnumber : number < Word.unsignedLimit) (total place : Nat) :
    ∃ place', digits.foldlM step ⟨total, place, .whole number, true⟩ =
      if Nat.ofDigitChars 10 digits number < Word.unsignedLimit then
        .ok ⟨total, place', .whole (Nat.ofDigitChars 10 digits number), true⟩
      else .error .tooLarge := by
  induction digits generalizing number place with
  | nil => exact ⟨place, by rw [Nat.ofDigitChars_nil, if_pos hnumber]; rfl⟩
  | cons c digits ih =>
      have hc := h c List.mem_cons_self
      have hrest := fun d hd => h d (List.mem_cons_of_mem c hd)
      have hvalue : number * 10 + digitValue c = 10 * number + (c.toNat - '0'.toNat) := by
        rw [Nat.mul_comm]
        rfl
      by_cases hword : 10 * number + (c.toNat - '0'.toNat) < Word.unsignedLimit
      · obtain ⟨place', hih⟩ := ih hrest hword (place + c.utf8Size)
        refine ⟨place', ?_⟩
        have hstep : step ⟨total, place, .whole number, true⟩ c =
            .ok ⟨total, place + c.utf8Size, .whole (10 * number + (c.toNat - '0'.toNat)), true⟩ := by
          simp only [step, hc, ↓reduceIte, word, hvalue, hword]
          rfl
        rw [List.foldlM_cons, hstep, ok_bind, hih, Nat.ofDigitChars_cons]
      · refine ⟨0, ?_⟩
        have hstep : step ⟨total, place, .whole number, true⟩ c = .error .tooLarge := by
          simp only [step, hc, ↓reduceIte, word, hvalue, hword]
          rfl
        have hge := ofDigitChars_ge digits (10 * number + (c.toNat - '0'.toNat))
        rw [List.foldlM_cons, hstep, Nat.ofDigitChars_cons, if_neg (by omega)]
        rfl

theorem foldlM_toDigits (n total place since : Nat) (begun : Bool) :
    ∃ place', (Nat.toDigits 10 n).foldlM step ⟨total, place, .lead since, begun⟩ =
      if n < Word.unsignedLimit then .ok ⟨total, place', .whole n, true⟩ else .error .tooLarge := by
  have hdigit : ∀ c ∈ Nat.toDigits 10 n, c.isDigit = true :=
    fun c hc => Nat.isDigit_of_mem_toDigits (by decide) (by decide) hc
  have hvalue : Nat.ofDigitChars 10 (Nat.toDigits 10 n) 0 = n := Nat.ofDigitChars_ten_toDigits
  obtain ⟨first, digits, hdigits⟩ := List.exists_cons_of_ne_nil (@Nat.toDigits_ne_nil n 10)
  rw [hdigits] at hdigit hvalue ⊢
  rw [Nat.ofDigitChars_cons, Nat.mul_zero, Nat.zero_add] at hvalue
  have hfirst := hdigit first List.mem_cons_self
  have hsmall : digitValue first < Word.unsignedLimit := by
    have : first.toNat ≤ '9'.toNat := by
      simp only [Char.isDigit, Bool.and_eq_true, decide_eq_true_eq] at hfirst
      exact hfirst.2
    simp only [digitValue, Word.unsignedLimit]
    have : '9'.toNat = 57 := rfl
    omega
  have hlead : step ⟨total, place, .lead since, begun⟩ first =
      .ok ⟨total, place + first.utf8Size, .whole (digitValue first), true⟩ := by
    simp only [step, hfirst, ↓reduceIte]
    rfl
  obtain ⟨place', hrest⟩ := foldlM_digits (fun c hc => hdigit c (List.mem_cons_of_mem first hc))
    hsmall total (place + first.utf8Size)
  have hnumber : Nat.ofDigitChars 10 digits (digitValue first) = n := hvalue
  rw [hnumber] at hrest
  exact ⟨place', by rw [List.foldlM_cons, hlead, ok_bind, hrest]⟩

/-! ## Milliseconds -/

/-- A count of milliseconds as it is written for a store. -/
def millisText (n : Int) : String := toString n ++ "ms"

theorem toList_millisText (n : Nat) :
    (millisText n).toList = Nat.toDigits 10 n ++ ['m', 's'] := by
  have hdigits : (toString (n : Int)).toList = Nat.toDigits 10 n := Nat.toList_repr
  have hunit : "ms".toList = ['m', 's'] := rfl
  rw [millisText, String.toList_append, hdigits, hunit]

theorem toList_millisText_negSucc (n : Nat) :
    (millisText (Int.negSucc n)).toList = '-' :: (Nat.toDigits 10 (n + 1) ++ ['m', 's']) := by
  have hsign : toString (Int.negSucc n) = "-" ++ Nat.repr (n + 1) := rfl
  have hdash : "-".toList = ['-'] := rfl
  have hunit : "ms".toList = ['m', 's'] := rfl
  rw [millisText, hsign, String.toList_append, String.toList_append, Nat.toList_repr, hdash, hunit]
  rfl

theorem millisText_ne_zero (n : Int) : millisText n ≠ "0" := by
  intro h
  have hlast : (millisText n).toList.getLast? = some 's' := by
    have hunit : "ms".toList = ['m', 's'] := rfl
    rw [millisText, String.toList_append, hunit, List.getLast?_append]
    rfl
  rw [h] at hlast
  exact absurd hlast (by decide)

/-- Seconds and nanoseconds are added as long as no part of the sum leaves the words. -/
theorem addPart_eq_ok {total seconds nanos : Nat}
    (hnanos : total % 1000000000 + nanos < Word.unsignedLimit)
    (hsum : (total + seconds * 1000000000 + nanos) / 1000000000 < Word.unsignedLimit) :
    addPart total seconds nanos = .ok (total + seconds * 1000000000 + nanos) := by
  simp only [addPart, word, if_pos hnanos, if_pos hsum, ok_bind]
  rfl

theorem addUnit_millis {number : Nat} (h : number * 1000000 < Word.unsignedLimit) :
    addUnit 0 number none ['m', 's'] = .ok (number * 1000000) := by
  have hunit : Unit.ofName? (String.ofList ['m', 's']) = some .millisecond := by decide
  have hwhole : word (number * Unit.millisecond.size) = .ok (number * 1000000) := if_pos h
  have hshort : Unit.millisecond.isShort = true := rfl
  have hsum : (0 + 0 * 1000000000 + number * 1000000) / 1000000000 < Word.unsignedLimit := by omega
  rw [addUnit, hunit]
  simp only
  rw [hwhole, ok_bind, if_pos hshort, addPart_eq_ok (by omega) hsum, ok_bind, Nat.zero_mul,
    Nat.add_zero, Nat.zero_add]
  rfl

theorem addUnit_millis_of_ge {number : Nat} (h : ¬ number * 1000000 < Word.unsignedLimit) :
    addUnit 0 number none ['m', 's'] = .error .tooLarge := by
  have hunit : Unit.ofName? (String.ofList ['m', 's']) = some .millisecond := by decide
  simp only [addUnit, hunit, Unit.size, word, h, ↓reduceIte]
  rfl

theorem parse_millisText (n : Nat) :
    parse (millisText n) =
      if n * 1000000 < Word.unsignedLimit then .ok (n * 1000000) else .error .tooLarge := by
  obtain ⟨place, hnumber⟩ := foldlM_toDigits n 0 0 0 false
  rw [parse, if_neg (millisText_ne_zero n), toList_millisText, List.foldlM_append, start, hnumber]
  by_cases hword : n < Word.unsignedLimit
  · have hunit : ['m', 's'].foldlM step ⟨0, place, .whole n, true⟩ =
        .ok ⟨0, place + 1 + 1, .unit n none ['s', 'm'], true⟩ := rfl
    rw [if_pos hword, ok_bind, hunit, ok_bind]
    have hfinish : finish ⟨0, place + 1 + 1, .unit n none ['s', 'm'], true⟩ =
        addUnit 0 n none ['m', 's'] := rfl
    rw [hfinish]
    split
    · rename_i h
      exact addUnit_millis h
    · rename_i h
      exact addUnit_millis_of_ge h
  · rw [if_neg hword, if_neg (by omega)]
    rfl

theorem parse_millisText_negSucc (n : Nat) :
    parse (millisText (Int.negSucc n)) = .error (.numberExpected 0) := by
  have hstep : step start '-' = .error (.numberExpected 0) := rfl
  rw [parse, if_neg (millisText_ne_zero _), toList_millisText_negSucc, List.foldlM_cons, hstep]
  rfl

/-- Whether the store reads a count of milliseconds: its nanoseconds are a word. -/
def Readable (n : Int) : Prop := 0 ≤ n ∧ n * 1000000 < Word.unsignedLimit

instance (n : Int) : Decidable (Readable n) := by unfold Readable; infer_instance

theorem parseMillis_of_readable {n : Int} (h : Readable n) :
    parseMillis (millisText n) = .ok n.toNat := by
  obtain ⟨hlo, hhi⟩ := h
  obtain ⟨m, rfl⟩ := Int.eq_ofNat_of_zero_le hlo
  have hword : m * 1000000 < Word.unsignedLimit := by omega
  have hmillis : m * 1000000 / 1000000 = m := Nat.mul_div_cancel m (by decide)
  have hsigned : m < Word.signedLimit := by
    simp only [Word.unsignedLimit, Word.signedLimit] at hword ⊢
    omega
  have hparse := parse_millisText m
  rw [if_pos hword] at hparse
  rw [parseMillis, hparse]
  dsimp only
  rw [hmillis, if_pos hsigned]
  rfl

theorem parseMillis_of_not_readable {n : Int} (h : ¬ Readable n) :
    ∃ cause, (cause = .tooLarge ∨ cause = .numberExpected 0) ∧
      parseMillis (millisText n) = .error (.malformed (millisText n) cause) := by
  cases n with
  | ofNat n =>
      have hword : ¬ n * 1000000 < Word.unsignedLimit := by
        intro hn
        refine h ⟨Int.natCast_nonneg n, ?_⟩
        rw [Int.ofNat_eq_natCast]
        omega
      refine ⟨.tooLarge, .inl rfl, ?_⟩
      have hparse := parse_millisText n
      rw [if_neg hword] at hparse
      rw [Int.ofNat_eq_natCast, parseMillis, hparse]
  | negSucc n =>
      refine ⟨.numberExpected 0, .inr rfl, ?_⟩
      rw [parseMillis, parse_millisText_negSucc]

end Sluice.Duration
