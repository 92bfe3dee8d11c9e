import Sluice.Proofs.Calendar
import Sluice.Time.Rfc3339

/-!
What is written of a moment is read back as the same moment, provided its local year has four digits
and its offset is less than a day.
-/
namespace Sluice

namespace Rfc3339

/-! ## Numbers of fixed width -/

theorem isDigit_of_mem_padded {width n : Nat} {c : Char} (h : c ∈ padded width n) :
    c.isDigit = true := by
  rcases List.mem_append.mp h with h | h
  · rw [List.eq_of_mem_replicate h]
    rfl
  · exact Nat.isDigit_of_mem_toDigits (by decide) (by decide) h

theorem length_padded {width n : Nat} (hw : 0 < width) (h : n < Nat.pow 10 width) :
    (padded width n).length = width := by
  have := (Nat.length_toDigits_le_iff (b := 10) (n := n) (by decide) hw).mpr h
  simp only [padded, List.length_append, List.length_replicate]
  omega

theorem ofDigitChars_padded (width n : Nat) : Nat.ofDigitChars 10 (padded width n) 0 = n := by
  simp [padded, Nat.ofDigitChars_append]

theorem number?_padded_append {width n : Nat} (hw : 0 < width) (h : n < Nat.pow 10 width)
    (rest : List Char) : number? width (padded width n ++ rest) = some (n, rest) := by
  have hlen := length_padded hw h
  have hall : (padded width n).all Char.isDigit = true :=
    List.all_eq_true.mpr fun c hc => isDigit_of_mem_padded hc
  simp only [number?, List.take_left' hlen, List.drop_left' hlen, hlen, hall, and_self, ↓reduceIte,
    ofDigitChars_padded]

theorem number?_padded {width n : Nat} (hw : 0 < width) (h : n < Nat.pow 10 width) :
    number? width (padded width n) = some (n, []) := by
  simpa using number?_padded_append hw h []

theorem ofDigitChars_lt {digits : List Char} (h : ∀ c ∈ digits, c.isDigit = true) :
    Nat.ofDigitChars 10 digits 0 < Nat.pow 10 digits.length := by
  induction digits with
  | nil => simp
  | cons c digits ih =>
      have hc : c.toNat - '0'.toNat < 10 := by
        have := Char.isDigit_iff_toNat.mp (h c (by simp))
        simp only [Char.reduceToNat] at this ⊢
        omega
      have hrest := ih fun d hd => h d (by simp [hd])
      rw [Nat.ofDigitChars_cons, Nat.ofDigitChars_eq_ofDigitChars_zero, Nat.mul_zero, Nat.zero_add]
      calc Nat.pow 10 digits.length * (c.toNat - '0'.toNat) + Nat.ofDigitChars 10 digits 0
          < Nat.pow 10 digits.length * (c.toNat - '0'.toNat) + Nat.pow 10 digits.length :=
            Nat.add_lt_add_left hrest _
        _ = Nat.pow 10 digits.length * (c.toNat - '0'.toNat + 1) := (Nat.mul_succ ..).symm
        _ ≤ Nat.pow 10 digits.length * 10 := Nat.mul_le_mul_left _ hc

theorem lt_of_number? {width n : Nat} {cs rest : List Char} (h : number? width cs = some (n, rest)) :
    n < Nat.pow 10 width := by
  simp only [number?] at h
  split at h
  · rename_i hdigits
    simp only [Option.some.injEq, Prod.mk.injEq] at h
    have := ofDigitChars_lt (List.all_eq_true.mp hdigits.2)
    rw [hdigits.1] at this
    omega
  · cases h

/-! ## Parts of a second -/

theorem lt_of_fraction? {nanos : Nat} {cs rest : List Char}
    (h : fraction? cs = some (nanos, rest)) : nanos < 1000000000 := by
  unfold fraction? at h
  split at h
  · rename_i cs
    simp only [Option.ite_none_left_eq_some, Option.some.injEq, Prod.mk.injEq] at h
    obtain ⟨-, hvalue, -⟩ := h
    generalize hkept : (cs.takeWhile Char.isDigit).take 9 = kept at hvalue
    have hlen : kept.length ≤ 9 := by
      rw [← hkept, List.length_take]
      omega
    have hdigits : ∀ c ∈ kept ++ List.replicate (9 - kept.length) '0', c.isDigit = true := by
      intro c hc
      rcases List.mem_append.mp hc with hc | hc
      · rw [← hkept] at hc
        exact List.all_eq_true.mp List.all_takeWhile c (List.mem_of_mem_take hc)
      · rw [List.eq_of_mem_replicate hc]
        rfl
    have hnine : (kept ++ List.replicate (9 - kept.length) '0').length = 9 := by
      rw [List.length_append, List.length_replicate, Nat.add_sub_cancel' hlen]
    have hlt := ofDigitChars_lt hdigits
    rw [hnine, hvalue] at hlt
    exact hlt
  · simp only [Option.some.injEq, Prod.mk.injEq] at h
    omega

theorem withoutZeros_append_replicate (digits : List Char) :
    (digits.reverse.dropWhile (· = '0')).reverse ++ List.replicate
      (digits.length - (digits.reverse.dropWhile (· = '0')).reverse.length) '0' = digits := by
  have hsplit := List.takeWhile_append_dropWhile (p := (· = '0')) (l := digits.reverse)
  have hzeros : digits.reverse.takeWhile (· = '0') =
      List.replicate (digits.reverse.takeWhile (· = '0')).length '0' := by
    refine List.eq_replicate_of_mem fun c hc => ?_
    have := List.all_eq_true.mp (List.all_takeWhile (p := (· = '0')) (l := digits.reverse)) c hc
    simpa using this
  have hlen := congrArg List.length hsplit
  simp only [List.length_append, List.length_reverse] at hlen
  rw [List.length_reverse, ← Nat.eq_sub_of_add_eq hlen, ← List.reverse_replicate, ← hzeros,
    ← List.reverse_append, hsplit, List.reverse_reverse]

theorem fraction?_fractionText_append {nanos : Nat} (h : nanos < 1000000000) {rest : List Char}
    (hrest : ∀ c ∈ rest.head?, c.isDigit = false ∧ c ≠ '.') :
    fraction? (fractionText nanos ++ rest) = some (nanos, rest) := by
  by_cases hzero : nanos = 0
  · subst hzero
    cases rest with
    | nil => rfl
    | cons c rest =>
        have hc := (hrest c rfl).2
        simp only [fractionText, ↓reduceIte, List.nil_append]
        unfold fraction?
        split
        · rename_i heq
          exact absurd (List.cons.inj heq).1 hc
        · rfl
  · have hlen := @length_padded 9 nanos (by decide) h
    have hpadded := withoutZeros_append_replicate (padded 9 nanos)
    rw [hlen] at hpadded
    generalize hkept : ((padded 9 nanos).reverse.dropWhile (· = '0')).reverse = kept at hpadded
    have hvalue := ofDigitChars_padded 9 nanos
    rw [← hpadded] at hvalue
    have hdigits : ∀ c ∈ kept, c.isDigit = true := by
      intro c hc
      rw [← hkept, List.mem_reverse] at hc
      exact isDigit_of_mem_padded (List.mem_reverse.mp (List.dropWhile_subset _ hc))
    have hshort : kept.length ≤ 9 := by
      rw [← hlen, ← hkept, List.length_reverse, ← @List.length_reverse _ (padded 9 nanos)]
      exact (List.dropWhile_sublist _).length_le
    have hne : kept ≠ [] := by
      rintro rfl
      exact hzero (hvalue.symm.trans (Nat.ofDigitChars_replicate_zero ..))
    have hnone : rest.takeWhile Char.isDigit = [] ∧ rest.dropWhile Char.isDigit = rest := by
      cases rest with
      | nil => exact ⟨rfl, rfl⟩
      | cons c rest =>
          have hc := (hrest c rfl).1
          exact ⟨by simp [hc], by simp [hc]⟩
    simp only [fractionText, hzero, ↓reduceIte, hkept, List.cons_append, fraction?,
      List.takeWhile_append_of_pos hdigits, List.dropWhile_append_of_pos hdigits, hnone.1,
      hnone.2, List.append_nil, hne, List.take_of_length_le hshort, hvalue]

/-! ## Offsets -/

theorem offset?_offsetText {minutes : Int} (h : minutes.natAbs < 24 * 60) :
    offset? (offsetText minutes) = some minutes := by
  have hm : minutes.natAbs % 60 < Nat.pow 10 2 := show _ < 100 by omega
  have hh : minutes.natAbs / 60 < Nat.pow 10 2 := show _ < 100 by omega
  have hread : ∀ sign : Char, sign ≠ 'Z' → sign ≠ 'z' →
      offset? (sign :: padded 2 (minutes.natAbs / 60) ++ ':' :: padded 2 (minutes.natAbs % 60)) =
        if sign = '+' then some (minutes.natAbs : Int)
        else if sign = '-' then some (-(minutes.natAbs : Int)) else none := by
    intro sign hZ hz
    have hrange : ¬(([] : List Char) ≠ [] ∨ 23 < minutes.natAbs / 60 ∨
        59 < minutes.natAbs % 60) := by
      simp only [ne_eq, not_true_eq_false, false_or]
      omega
    have hsum : ((minutes.natAbs / 60 : Nat) : Int) * 60 + ((minutes.natAbs % 60 : Nat) : Int) =
        minutes.natAbs := by omega
    unfold offset?
    split
    · rename_i heq
      exact absurd (List.cons.inj heq).1 hZ
    · rename_i heq
      exact absurd (List.cons.inj heq).1 hz
    · rename_i heq
      obtain ⟨rfl, rfl⟩ := List.cons.inj heq
      simp only [List.append_eq, number?_padded_append (by decide) hh,
        number?_padded (by decide) hm, expect?, Option.bind_eq_bind, Option.bind_some,
        ↓reduceIte, hrange, hsum]
    · rename_i heq
      simp at heq
  unfold offsetText
  by_cases hzero : minutes = 0
  · subst hzero
    rfl
  · by_cases hneg : minutes < 0
    · simp only [hzero, ↓reduceIte, hneg, hread '-' (by decide) (by decide)]
      simp only [Char.reduceEq, ↓reduceIte, Option.some.injEq]
      omega
    · simp only [hzero, ↓reduceIte, hneg, hread '+' (by decide) (by decide)]
      simp only [Option.some.injEq]
      omega

theorem natAbs_lt_of_offset? {minutes : Int} {cs : List Char} (h : offset? cs = some minutes) :
    minutes.natAbs < 24 * 60 := by
  unfold offset? at h
  split at h
  · cases h
    decide
  · cases h
    decide
  · simp only [Option.bind_eq_bind, Option.bind_eq_some_iff] at h
    obtain ⟨⟨hours, cs⟩, -, cs, -, ⟨rest, cs⟩, -, h⟩ := h
    simp only [Option.ite_none_left_eq_some] at h
    obtain ⟨hrange, h⟩ := h
    simp only [ne_eq, not_or, Nat.not_lt] at hrange
    split at h
    · cases h
      omega
    · split at h
      · cases h
        omega
      · cases h
  · cases h

theorem head?_offsetText {minutes : Int} :
    ∀ c ∈ (offsetText minutes).head?, c.isDigit = false ∧ c ≠ '.' := by
  intro c hc
  unfold offsetText at hc
  split at hc
  · cases hc
    decide
  · split at hc
    · cases hc
      decide
    · cases hc
      decide

/-! ## Whole texts -/

theorem bind_of_eq_some {α β : Type} {o : Option α} {a : α} (h : o = some a) (f : α → Option β) :
    o.bind f = f a :=
  h ▸ rfl

theorem expect?_cons (c : Char) (cs : List Char) : expect? c (c :: cs) = some cs := if_pos rfl

theorem anyByte?_cons {c : Char} (h : c.toNat < 0x80) (cs : List Char) :
    anyByte? (c :: cs) = some cs :=
  if_pos h

/-- The text of a date, a time of day, a part of a second and an offset. -/
def write (year month day hour minute second nanos : Nat) (offset : Int) : List Char :=
  padded 4 year ++ '-' :: padded 2 month ++ '-' :: padded 2 day ++ 'T' :: padded 2 hour ++
    ':' :: padded 2 minute ++ ':' :: padded 2 second ++ fractionText nanos ++ offsetText offset

theorem parse?_write {year month day hour minute second nanos : Nat} {offset : Int}
    (hdate : (Calendar.Date.mk year month day).isValid = true) (hy : year ≤ 9999)
    (hh : hour ≤ 23) (hm : minute ≤ 59) (hs : second ≤ 59) (hn : nanos < 1000000000)
    (ho : offset.natAbs < 24 * 60) :
    Moment.parse? (String.ofList (write year month day hour minute second nanos offset)) =
      some ⟨((Calendar.Date.mk year month day).toDays - Calendar.epochDay) * Moment.nanosPerDay +
        ((hour * 60 + minute) * 60 + second : Int) * Moment.nanosPerSecond + nanos -
        offset * Moment.nanosPerMinute, offset⟩ := by
  have hmonth : month ≤ 12 ∧ day ≤ 31 := by
    simp only [Calendar.Date.isValid, Bool.and_eq_true, decide_eq_true_eq] at hdate
    have := Calendar.daysInMonth_le year month
    omega
  have hrange : (!(Calendar.Date.mk year month day).isValid || decide (23 < hour) ||
      decide (59 < minute) || decide (60 < second)) = false := by
    simp only [hdate, Bool.not_true, Bool.false_or, Bool.or_eq_false_iff, decide_eq_false_iff_not]
    omega
  have hleap : ¬ second = 60 := by omega
  have htext : (String.ofList (write year month day hour minute second nanos offset)).toList =
      padded 4 year ++ ('-' :: (padded 2 month ++ ('-' :: (padded 2 day ++ ('T' ::
        (padded 2 hour ++ (':' :: (padded 2 minute ++ (':' :: (padded 2 second ++
          (fractionText nanos ++ offsetText offset))))))))))) := by
    simp only [String.toList_ofList, write, List.append_assoc, List.cons_append]
  have number (width n limit : Nat) (hw : 0 < width) (hlimit : limit < Nat.pow 10 width)
      (hn : n ≤ limit) (rest : List Char) :
      number? width (padded width n ++ rest) = some (n, rest) :=
    number?_padded_append hw (Nat.lt_of_le_of_lt hn hlimit) rest
  rw [Moment.parse?, htext]
  refine (bind_of_eq_some (number 4 year 9999 (by decide) (by decide) hy _) _).trans ?_
  refine (bind_of_eq_some (expect?_cons '-' _) _).trans ?_
  refine (bind_of_eq_some (number 2 month 12 (by decide) (by decide) hmonth.1 _) _).trans ?_
  refine (bind_of_eq_some (expect?_cons '-' _) _).trans ?_
  refine (bind_of_eq_some (number 2 day 31 (by decide) (by decide) hmonth.2 _) _).trans ?_
  refine (bind_of_eq_some (anyByte?_cons (c := 'T') (by decide) _) _).trans ?_
  refine (bind_of_eq_some (number 2 hour 23 (by decide) (by decide) hh _) _).trans ?_
  refine (bind_of_eq_some (expect?_cons ':' _) _).trans ?_
  refine (bind_of_eq_some (number 2 minute 59 (by decide) (by decide) hm _) _).trans ?_
  refine (bind_of_eq_some (expect?_cons ':' _) _).trans ?_
  refine (bind_of_eq_some (number 2 second 59 (by decide) (by decide) hs _) _).trans ?_
  refine (bind_of_eq_some (fraction?_fractionText_append hn head?_offsetText) _).trans ?_
  refine (bind_of_eq_some (offset?_offsetText ho) _).trans ?_
  simp only [hrange, hleap, decide_false, ↓reduceIte, Bool.false_and, Bool.false_eq_true]

end Rfc3339

namespace Moment

open Rfc3339

/-- The moments that a text stands for: the local year has four digits, and the offset is less than
a day. -/
structure Writable (m : Moment) : Prop where
  year_nonneg : 0 ≤ m.localDate.year
  year_le : m.localDate.year ≤ 9999
  offset_lt : m.offset.natAbs < 24 * 60

theorem format_eq_write {m : Moment} (h : m.Writable) :
    m.format = String.ofList (write m.localDate.year.toNat m.localDate.month m.localDate.day
      (m.timeOfDay.toNat / 1000000000 / 3600) (m.timeOfDay.toNat / 1000000000 / 60 % 60)
      (m.timeOfDay.toNat / 1000000000 % 60) (m.timeOfDay.toNat % 1000000000) m.offset) := by
  have hhours : m.offset.natAbs / 60 ≤ 23 := by
    have := h.offset_lt
    omega
  simp only [format, h.year_nonneg, h.year_le, hhours, and_self, ↓reduceIte, write]

theorem parse?_format {m : Moment} (h : m.Writable) : parse? m.format = some m := by
  have hlo := h.year_nonneg
  have hhi := h.year_le
  have hyear : (m.localDate.year.toNat : Int) = m.localDate.year := by omega
  have hdate : Calendar.Date.mk m.localDate.year.toNat m.localDate.month m.localDate.day =
      m.localDate := by
    rw [hyear]
  have hdays : m.localDate.toDays = m.localNanos / nanosPerDay + Calendar.epochDay :=
    Calendar.toDays_ofDays _
  have hvalid : m.localDate.isValid = true := Calendar.isValid_ofDays _
  have htime : 0 ≤ m.timeOfDay ∧ m.timeOfDay < nanosPerDay :=
    ⟨Int.emod_nonneg _ (by decide), Int.emod_lt_of_pos _ (by decide)⟩
  have hsplit : m.localNanos / nanosPerDay * nanosPerDay + m.timeOfDay = m.localNanos := by
    rw [Int.mul_comm]
    exact Int.mul_ediv_add_emod _ _
  have hlocal : m.localNanos = m.nanos + m.offset * nanosPerMinute := rfl
  simp only [nanosPerDay, nanosPerSecond, nanosPerMinute] at htime hsplit hlocal
  rw [format_eq_write h, parse?_write (by rw [hdate]; exact hvalid) (by omega) (by omega)
    (by omega) (by omega) (by omega) h.offset_lt, hdate, hdays]
  simp only [nanosPerDay, nanosPerSecond, nanosPerMinute]
  congr 2
  omega

/-- The local time of a moment made of a valid date and a time of day. -/
theorem localDate_year_of_parts {m : Moment} {date : Calendar.Date} {clock fraction : Int}
    (hdate : date.isValid = true) (hclock : 0 ≤ clock ∧ clock < 86400)
    (hfraction : 0 ≤ fraction ∧ fraction < 1000000000)
    (hlocal : m.localNanos =
      (date.toDays - Calendar.epochDay) * nanosPerDay + clock * nanosPerSecond + fraction) :
    m.localDate.year = date.year := by
  have hday : m.localNanos / nanosPerDay + Calendar.epochDay = date.toDays := by
    rw [hlocal]
    simp only [nanosPerDay, nanosPerSecond]
    omega
  rw [← Calendar.yearOfDay_toDays hdate, ← hday]
  rfl

/-- What is read from a text can be written again. -/
theorem writable_of_parse? {s : String} {m : Moment} (h : parse? s = some m) : m.Writable := by
  obtain ⟨⟨year, cs⟩, hy, h⟩ := Option.bind_eq_some_iff.mp h
  obtain ⟨cs, -, h⟩ := Option.bind_eq_some_iff.mp h
  obtain ⟨⟨month, cs⟩, -, h⟩ := Option.bind_eq_some_iff.mp h
  obtain ⟨cs, -, h⟩ := Option.bind_eq_some_iff.mp h
  obtain ⟨⟨day, cs⟩, -, h⟩ := Option.bind_eq_some_iff.mp h
  obtain ⟨cs, -, h⟩ := Option.bind_eq_some_iff.mp h
  obtain ⟨⟨hour, cs⟩, -, h⟩ := Option.bind_eq_some_iff.mp h
  obtain ⟨cs, -, h⟩ := Option.bind_eq_some_iff.mp h
  obtain ⟨⟨minute, cs⟩, -, h⟩ := Option.bind_eq_some_iff.mp h
  obtain ⟨cs, -, h⟩ := Option.bind_eq_some_iff.mp h
  obtain ⟨⟨second, cs⟩, -, h⟩ := Option.bind_eq_some_iff.mp h
  obtain ⟨⟨fraction, cs⟩, hf, h⟩ := Option.bind_eq_some_iff.mp h
  obtain ⟨offset, ho, h⟩ := Option.bind_eq_some_iff.mp h
  have hyear : year < 10000 := lt_of_number? hy
  have hfraction := lt_of_fraction? hf
  have hoffset := natAbs_lt_of_offset? ho
  simp only [Option.ite_none_left_eq_some, Option.some.injEq, Bool.or_eq_true, not_or,
    Bool.not_eq_true', Bool.not_eq_false, decide_eq_true_eq, Nat.not_lt] at h
  obtain ⟨⟨⟨⟨hdate, hh⟩, hm⟩, hs⟩, -, rfl⟩ := h
  have hdateYear : ∀ m : Moment, m.localDate.year = year → m.offset = offset → m.Writable := by
    intro m hmy hmo
    exact ⟨by omega, by omega, by rw [hmo]; exact hoffset⟩
  refine hdateYear _ ?_ rfl
  by_cases hleap : second = 60
  · refine @localDate_year_of_parts _ _ ((hour * 60 + minute) * 60 + 59) 999999999 hdate
      (by omega) (by omega) ?_
    simp [hleap, localNanos]
  · refine @localDate_year_of_parts _ _ ((hour * 60 + minute) * 60 + second) fraction hdate
      (by omega) (by omega) ?_
    simp [hleap, localNanos]

end Moment
end Sluice
