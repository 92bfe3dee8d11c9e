import Sluice.Proofs.Durations

/-!
Durations are read back as they were written. A text is a row of parts, each a count with its unit,
and the reader adds up what they stand for.
-/
namespace Sluice.Duration

open Reader

/-! ## Units -/

/-- The nanoseconds in one of a unit. -/
def Unit.nanos (unit : Unit) : Nat := if unit.isShort then unit.size else unit.size * 1000000000

/-- Every name of a unit. -/
def Unit.names : List String :=
  ["nanos", "nsec", "ns", "usec", "us", "µs", "millis", "msec", "ms", "seconds", "second", "secs",
    "sec", "s", "minutes", "minute", "min", "mins", "m", "hours", "hour", "hr", "hrs", "h", "days",
    "day", "d", "weeks", "week", "wk", "wks", "w", "months", "month", "M", "years", "year", "yr",
    "yrs", "y"]

theorem Unit.mem_names {name : String} {unit : Unit} (h : ofName? name = some unit) :
    name ∈ names := by
  by_contra hnone
  simp only [names, List.mem_cons, not_or] at hnone
  simp [ofName?, hnone] at h

/-- A letter of a unit goes on with no number and ends no text. -/
structure Letter (c : Char) : Prop where
  unit : isUnitLetter c = true
  digit : c.isDigit = false
  blank : Text.isBlank c = false

instance (c : Char) : Decidable (Letter c) :=
  decidable_of_iff (isUnitLetter c = true ∧ c.isDigit = false ∧ Text.isBlank c = false)
    ⟨fun ⟨hunit, hdigit, hblank⟩ => ⟨hunit, hdigit, hblank⟩, fun ⟨hunit, hdigit, hblank⟩ =>
      ⟨hunit, hdigit, hblank⟩⟩

theorem Unit.letters_of_ofName? {name : String} {unit : Unit} (h : ofName? name = some unit) :
    name.toList ≠ [] ∧ ∀ c ∈ name.toList, Letter c := by
  have hall : ∀ name ∈ names, name.toList ≠ [] ∧ name.toList.all (decide <| Letter ·) = true := by
    decide
  obtain ⟨hne, hletters⟩ := hall name (mem_names h)
  exact ⟨hne, by simpa using hletters⟩

/-! ## Parts -/

/-- A count of a unit, by one of the unit's names. -/
structure Part where
  count : Nat
  unit : Unit
  name : String
  named : Unit.ofName? name = some unit

namespace Part

def text (p : Part) : String := toString p.count ++ p.name

def nanos (p : Part) : Nat := p.count * p.unit.nanos

/-- The nanoseconds of a row of parts. -/
def total : List Part → Nat
  | [] => 0
  | p :: ps => p.nanos + total ps

theorem total_append (ps qs : List Part) : total (ps ++ qs) = total ps + total qs := by
  induction ps with
  | nil => exact (Nat.zero_add _).symm
  | cons p ps ih => rw [List.cons_append, total, total, ih, Nat.add_assoc]

/-- A count of a short unit that makes up less than a second. -/
def Brief (p : Part) : Prop := p.unit.isShort = true → p.nanos < 1000000000

theorem toList_text (p : Part) : p.text.toList = Nat.toDigits 10 p.count ++ p.name.toList := by
  have hdigits : (toString p.count).toList = Nat.toDigits 10 p.count := Nat.toList_repr
  rw [text, String.toList_append, hdigits]

end Part

/-! ## Reading -/

/-- The nanoseconds of the longest width: one more is no signed word of milliseconds. -/
def limit : Nat := Word.signedLimit * 1000000

theorem Part.size_lt (p : Part) (hbrief : p.Brief) (h : p.nanos < limit) :
    p.count * p.unit.size < Word.unsignedLimit := by
  have hlimit : limit = 9223372036854775808000000 := rfl
  rw [hlimit] at h
  simp only [Word.unsignedLimit]
  cases hshort : p.unit.isShort with
  | true =>
      have hsecond := hbrief hshort
      rw [Part.nanos, Unit.nanos, if_pos hshort] at hsecond
      omega
  | false =>
      rw [Part.nanos, Unit.nanos, if_neg (by simp [hshort]), ← Nat.mul_assoc] at h
      omega

theorem Part.count_lt (p : Part) (hbrief : p.Brief) (h : p.nanos < limit) :
    p.count < Word.unsignedLimit := by
  have hsize : 0 < p.unit.size := by cases p.unit <;> decide
  exact Nat.lt_of_le_of_lt (Nat.le_mul_of_pos_right p.count hsize) (p.size_lt hbrief h)

theorem foldlM_letters {letters : List Char} (h : ∀ c ∈ letters, Letter c) (total place number : Nat)
    (fraction : Option Fraction) (reversed : List Char) :
    ∃ place', letters.foldlM step ⟨total, place, .unit number fraction reversed, true⟩ =
      .ok ⟨total, place', .unit number fraction (letters.reverse ++ reversed), true⟩ := by
  induction letters generalizing place reversed with
  | nil => exact ⟨place, rfl⟩
  | cons c letters ih =>
      obtain ⟨hunit, hdigit, hblank⟩ := h c List.mem_cons_self
      have hstep : step ⟨total, place, .unit number fraction reversed, true⟩ c =
          .ok ⟨total, place + c.utf8Size, .unit number fraction (c :: reversed), true⟩ := by
        simp [step, hunit, hdigit, hblank]
        rfl
      obtain ⟨place', hrest⟩ := ih (fun d hd => h d (List.mem_cons_of_mem c hd))
        (place + c.utf8Size) (c :: reversed)
      refine ⟨place', ?_⟩
      rw [List.foldlM_cons, hstep, ok_bind, hrest, List.reverse_cons, List.append_assoc]
      rfl

/-- A part is read up to its unit, which only ends with what follows. -/
theorem foldlM_part (p : Part) (hcount : p.count < Word.unsignedLimit) (total place since : Nat)
    (begun : Bool) :
    ∃ place', p.text.toList.foldlM step ⟨total, place, .lead since, begun⟩ =
      .ok ⟨total, place', .unit p.count none p.name.toList.reverse, true⟩ := by
  obtain ⟨hne, hletters⟩ := Unit.letters_of_ofName? p.named
  obtain ⟨c, letters, hname⟩ := List.exists_cons_of_ne_nil hne
  rw [hname] at hletters
  obtain ⟨hunit, hdigit, hblank⟩ := hletters c List.mem_cons_self
  obtain ⟨place', hnumber⟩ := foldlM_toDigits p.count total place since begun
  rw [if_pos hcount] at hnumber
  have hstep : step ⟨total, place', .whole p.count, true⟩ c =
      .ok ⟨total, place' + c.utf8Size, .unit p.count none [c], true⟩ := by
    simp [step, hunit, hdigit, hblank]
    rfl
  obtain ⟨place'', hrest⟩ := foldlM_letters (fun d hd => hletters d (List.mem_cons_of_mem c hd))
    total (place' + c.utf8Size) p.count none [c]
  refine ⟨place'', ?_⟩
  rw [p.toList_text, hname, List.foldlM_append, hnumber, ok_bind, List.foldlM_cons, hstep, ok_bind,
    hrest, List.reverse_cons]

/-- Parts up to the longest width are added without leaving the words. -/
theorem addUnit_part (p : Part) (hbrief : p.Brief) {total : Nat} (h : total + p.nanos < limit) :
    addUnit total p.count none p.name.toList = .ok (total + p.nanos) := by
  have hunit : Unit.ofName? (String.ofList p.name.toList) = some p.unit := by
    rw [String.ofList_toList, p.named]
  have hsize := p.size_lt hbrief (by omega)
  have hwhole : word (p.count * p.unit.size) = .ok (p.count * p.unit.size) := if_pos hsize
  have hnanos : p.nanos = p.count * p.unit.nanos := rfl
  have hlimit : limit = 9223372036854775808000000 := rfl
  rw [hlimit] at h
  rw [addUnit, hunit]
  simp only [hwhole, ok_bind]
  cases hshort : p.unit.isShort with
  | true =>
      have hsecond := hbrief hshort
      rw [Unit.nanos, if_pos hshort] at hnanos
      have hadd := @addPart_eq_ok total 0 (p.count * p.unit.size)
        (by simp only [Word.unsignedLimit]; omega) (by simp only [Word.unsignedLimit]; omega)
      rw [Nat.zero_mul, Nat.add_zero] at hadd
      rw [if_pos rfl, hadd, ok_bind, hnanos]
      rfl
  | false =>
      rw [Unit.nanos, if_neg (by simp [hshort]), ← Nat.mul_assoc] at hnanos
      have hadd := @addPart_eq_ok total (p.count * p.unit.size) 0
        (by simp only [Word.unsignedLimit]; omega) (by simp only [Word.unsignedLimit]; omega)
      rw [Nat.add_zero] at hadd
      rw [if_neg (by decide), hadd, ok_bind, hnanos]
      rfl

theorem step_blank (p : Part) (hbrief : p.Brief) {total : Nat} (h : total + p.nanos < limit)
    (place : Nat) :
    step ⟨total, place, .unit p.count none p.name.toList.reverse, true⟩ ' ' =
      .ok ⟨total + p.nanos, place + 1, .lead (place + 1), true⟩ := by
  have hdigit : ' '.isDigit = false := rfl
  have hblank : Text.isBlank ' ' = true := rfl
  simp only [step, hdigit, hblank, List.reverse_reverse, addUnit_part p hbrief h, ok_bind]
  rfl

theorem finish_parts (p : Part) (ps : List Part) (hbrief : ∀ q ∈ p :: ps, q.Brief) {total : Nat}
    (h : total + Part.total (p :: ps) < limit) (place since : Nat) (begun : Bool) :
    ((" ".intercalate ((p :: ps).map Part.text)).toList.foldlM step
        ⟨total, place, .lead since, begun⟩ >>= finish) = .ok (total + Part.total (p :: ps)) := by
  induction ps generalizing p total place since begun with
  | nil =>
      have hp := hbrief p List.mem_cons_self
      have hone : Part.total [p] = p.nanos := Nat.add_zero _
      rw [hone] at h ⊢
      obtain ⟨place', hpart⟩ := foldlM_part p (p.count_lt hp (by omega)) total place since begun
      rw [List.map_singleton, String.intercalate_singleton, hpart, ok_bind]
      simp only [finish, List.reverse_reverse]
      exact addUnit_part p hp h
  | cons q ps ih =>
      have hp := hbrief p List.mem_cons_self
      have hmore : Part.total (p :: q :: ps) = p.nanos + Part.total (q :: ps) := rfl
      rw [hmore, ← Nat.add_assoc] at h ⊢
      obtain ⟨place', hpart⟩ := foldlM_part p (p.count_lt hp (by omega)) total place since begun
      have htext : (" ".intercalate ((p :: q :: ps).map Part.text)).toList =
          p.text.toList ++ ' ' :: (" ".intercalate ((q :: ps).map Part.text)).toList := by
        rw [List.map_cons, List.map_cons, String.intercalate_cons_cons, String.toList_append,
          String.toList_append, List.append_assoc]
        rfl
      rw [htext, List.foldlM_append, hpart, ok_bind, List.foldlM_cons,
        step_blank p hp (by omega), ok_bind]
      exact ih q (fun r hr => hbrief r (List.mem_cons_of_mem p hr)) h _ _ _

/-! ## Writing -/

namespace Part

/-- A part as it is shown, if there is any of it. -/
def shown (p : Part) : List Part := if p.count = 0 then [] else [p]

theorem map_text_shown (p : Part) : p.shown.map text = part p.count p.name := by
  rw [shown, part]
  split <;> rfl

theorem eq_of_mem_shown {p q : Part} (h : q ∈ p.shown) : q = p := by
  rw [shown] at h
  split at h
  · cases h
  · exact List.mem_singleton.mp h

theorem count_ne_zero_of_mem_shown {p q : Part} (h : q ∈ p.shown) : q.count ≠ 0 := by
  have hq := eq_of_mem_shown h
  rw [shown] at h
  split at h
  · cases h
  · rwa [hq]

theorem nanos_pos {p : Part} (h : p.count ≠ 0) : 0 < p.nanos := by
  have hunit : 0 < p.unit.nanos := by cases p.unit <;> decide
  exact Nat.mul_pos (Nat.pos_of_ne_zero h) hunit

theorem eq_nil_of_total {ps : List Part} (hpos : ∀ p ∈ ps, 0 < p.nanos) (h : total ps = 0) :
    ps = [] := by
  cases ps with
  | nil => rfl
  | cons p ps =>
      have hp := hpos p List.mem_cons_self
      rw [total] at h
      omega

/-- What is left out stands for nothing. -/
theorem total_flatMap_shown (ps : List Part) : total (ps.flatMap shown) = total ps := by
  induction ps with
  | nil => rfl
  | cons p ps ih =>
      have hshown : total p.shown = p.nanos := by
        rw [shown]
        split
        · rename_i hzero
          rw [nanos, hzero, Nat.zero_mul, total]
        · exact Nat.add_zero _
      rw [List.flatMap_cons, total_append, ih, hshown, total]

/-- Some units are spelt out, in the plural above one. -/
def spelt (count : Nat) (unit : Unit) (name : String) (hone : Unit.ofName? name = some unit)
    (hmany : Unit.ofName? (name ++ "s") = some unit) : Part :=
  ⟨count, unit, if count = 1 then name else name ++ "s", by split <;> assumption⟩

def years (nanos : Nat) : Part := spelt (nanos / 1000000000 / 31557600) .year "year" rfl rfl

def months (nanos : Nat) : Part :=
  spelt (nanos / 1000000000 % 31557600 / 2630016) .month "month" rfl rfl

theorem name_years (nanos : Nat) :
    (years nanos).name = if (years nanos).count = 1 then "year" else "year" ++ "s" := rfl

theorem name_months (nanos : Nat) :
    (months nanos).name = if (months nanos).count = 1 then "month" else "month" ++ "s" := rfl

/-- What stands behind the months, from days down to nanoseconds. -/
def lesser (nanos : Nat) : List Part :=
  let inMonth := nanos / 1000000000 % 31557600 % 2630016
  let inDay := inMonth % 86400
  let below := nanos % 1000000000
  [spelt (inMonth / 86400) .day "day" rfl rfl, ⟨inDay / 3600, .hour, "h", rfl⟩,
    ⟨inDay % 3600 / 60, .minute, "m", rfl⟩, ⟨inDay % 60, .second, "s", rfl⟩,
    ⟨below / 1000000, .millisecond, "ms", rfl⟩, ⟨below / 1000 % 1000, .microsecond, "us", rfl⟩,
    ⟨below % 1000, .nanosecond, "ns", rfl⟩]

/-- The parts of a duration that are shown. -/
def parts (nanos : Nat) : List Part := (years nanos :: months nanos :: lesser nanos).flatMap shown

theorem total_parts (nanos : Nat) : total (parts nanos) = nanos := by
  simp only [parts, total_flatMap_shown, years, months, lesser, total, Part.nanos, spelt,
    Unit.nanos, Unit.isShort, Unit.size, Bool.false_eq_true, ↓reduceIte]
  omega

/-- A part that makes up the whole is the only one. -/
theorem parts_eq_singleton {nanos : Nat} {p : Part}
    (hmem : p ∈ years nanos :: months nanos :: lesser nanos) (hcount : p.count ≠ 0)
    (hnanos : p.nanos = nanos) : parts nanos = [p] := by
  have hpos : ∀ q ∈ parts nanos, 0 < q.nanos := by
    intro q hq
    obtain ⟨r, -, hr⟩ := List.mem_flatMap.mp hq
    exact nanos_pos (count_ne_zero_of_mem_shown hr)
  have hshown : p ∈ parts nanos := by
    refine List.mem_flatMap.mpr ⟨p, hmem, ?_⟩
    rw [shown, if_neg hcount]
    exact List.mem_singleton_self p
  obtain ⟨front, back, hparts⟩ := List.append_of_mem hshown
  have htotal := total_parts nanos
  rw [hparts] at hpos htotal ⊢
  rw [total_append, total] at htotal
  have hfront : front = [] := eq_nil_of_total (fun q hq => hpos q (by simp [hq])) (by omega)
  have hback : back = [] := eq_nil_of_total (fun q hq => hpos q (by simp [hq])) (by omega)
  rw [hfront, hback, List.nil_append]

theorem unit_of_mem_lesser {nanos : Nat} {p : Part} (h : p ∈ lesser nanos) :
    p.unit ≠ .month ∧ p.unit ≠ .year := by
  revert p
  simp [lesser, spelt]

theorem brief_of_mem_parts {nanos : Nat} {p : Part} (h : p ∈ parts nanos) : p.Brief := by
  obtain ⟨q, hq, hp⟩ := List.mem_flatMap.mp h
  rw [eq_of_mem_shown hp]
  clear hp h
  revert q
  simp only [years, months, lesser, spelt, List.forall_mem_cons, Brief, Part.nanos, Unit.nanos,
    Unit.isShort, Unit.size, ↓reduceIte, Bool.false_eq_true, false_implies, true_and]
  -- Seconds and longer units are not short, and the three short ones share what is below a second.
  refine ⟨fun _ => ?_, fun _ => ?_, fun _ => ?_, fun q hq => by cases hq⟩
  · omega
  · omega
  · omega

end Part

theorem format_eq (nanos : Nat) :
    format nanos =
      if Part.parts nanos = [] then "0s"
      else " ".intercalate ((Part.parts nanos).map Part.text) := by
  have hempty : ((Part.parts nanos).map Part.text).isEmpty = true ↔ Part.parts nanos = [] := by
    simp
  simp only [← hempty]
  simp only [format, Part.parts, Part.lesser, Part.years, Part.months, Part.spelt, namedPart,
    List.flatMap_cons, List.flatMap_nil, List.append_nil, List.map_append, Part.map_text_shown,
    List.append_assoc]

/-- A text of parts has letters, so that it is no bare zero. -/
theorem intercalate_ne_zero (p : Part) (ps : List Part) :
    " ".intercalate ((p :: ps).map Part.text) ≠ "0" := by
  obtain ⟨hne, hletters⟩ := Unit.letters_of_ofName? p.named
  obtain ⟨c, letters, hname⟩ := List.exists_cons_of_ne_nil hne
  have hmem : c ∈ (" ".intercalate ((p :: ps).map Part.text)).toList := by
    have htext : c ∈ p.text.toList := by simp [p.toList_text, hname]
    cases ps with
    | nil => simpa using htext
    | cons q ps =>
        rw [List.map_cons, List.map_cons, String.intercalate_cons_cons, String.toList_append,
          String.toList_append]
        exact List.mem_append_left _ (List.mem_append_left _ htext)
  intro hzero
  rw [hzero] at hmem
  obtain rfl : c = '0' := by simpa using hmem
  exact absurd (hletters '0' (by simp [hname])).digit (by decide)

/-- Durations up to the longest width are read back as they were written. -/
theorem parse_format {nanos : Nat} (h : nanos < limit) : parse (format nanos) = .ok nanos := by
  have htotal := Part.total_parts nanos
  have hbrief : ∀ p ∈ Part.parts nanos, p.Brief := fun _ => Part.brief_of_mem_parts
  rw [format_eq]
  cases hparts : Part.parts nanos with
  | nil =>
      rw [hparts] at htotal
      rw [if_pos rfl, ← htotal]
      rfl
  | cons p ps =>
      rw [hparts] at htotal hbrief
      rw [if_neg (List.cons_ne_nil p ps), parse, if_neg (intercalate_ne_zero p ps)]
      have hlimit : 0 + Part.total (p :: ps) < limit := by omega
      have hread := finish_parts p ps hbrief hlimit 0 0 false
      rw [Nat.zero_add, htotal] at hread
      exact hread

theorem parseMillis_format {n : Nat} (h : n < Word.signedLimit) :
    parseMillis (format (n * 1000000)) = .ok n := by
  have hlimit : n * 1000000 < limit := Nat.mul_lt_mul_of_pos_right h (by decide)
  rw [parseMillis, parse_format hlimit]
  simp only [Nat.mul_div_cancel n (show 0 < 1000000 by decide), if_pos h]

end Sluice.Duration
