import Sluice.Proofs.DurationText
import Sluice.Time.Interval

/-!
Intervals are read back as they were written, but for one kind: a fixed width of whole years, or of a
few whole months, has the text of a calendar width and comes back as that.
-/
namespace Sluice

namespace Text

variable {cs : List Char}

theorem dropWhile_isBlank_eq_self (h : ∀ c ∈ cs.head?, isBlank c = false) :
    cs.dropWhile isBlank = cs := by
  cases cs with
  | nil => rfl
  | cons c cs => rw [List.dropWhile_cons_of_neg (by simp [h c rfl])]

theorem trim_eq_self (hhead : ∀ c ∈ cs.head?, isBlank c = false)
    (hlast : ∀ c ∈ cs.getLast?, isBlank c = false) : trim cs = cs := by
  have hreverse : ∀ c ∈ cs.reverse.head?, isBlank c = false := by rwa [List.head?_reverse]
  rw [trim, dropWhile_isBlank_eq_self hhead, dropWhile_isBlank_eq_self hreverse, List.reverse_reverse]

theorem isBlank_of_isDigit {c : Char} (h : c.isDigit = true) : isBlank c = false := by
  have hall : ∀ n < 58, 48 ≤ n → isBlank (Char.ofNat n) = false := by decide
  simp only [Char.isDigit, Bool.and_eq_true, decide_eq_true_eq] at h
  rw [← Char.ofNat_toNat c]
  exact hall c.toNat (Nat.lt_succ_of_le h.2) h.1

end Text

namespace Interval

open Duration (Part Letter)

/-! ## Texts -/

/-- What follows a number, beginning with another character, with no blanks around the whole. -/
structure Trails (tail : List Char) : Prop where
  ne_nil : tail ≠ []
  digit : ∀ c ∈ tail.head?, c.isDigit = false
  head : ∀ c ∈ tail.head?, Text.isBlank c = false
  last : ∀ c ∈ tail.getLast?, Text.isBlank c = false

variable {tail : List Char} {text : String} {n m : Nat}

theorem Trails.trim_append (h : Trails tail) (n : Nat) :
    Text.trim (Nat.toDigits 10 n ++ tail) = Nat.toDigits 10 n ++ tail := by
  refine Text.trim_eq_self (fun c hc => ?_) fun c hc => ?_
  · rw [List.head?_append_of_ne_nil _ Nat.toDigits_ne_nil] at hc
    exact Text.isBlank_of_isDigit
      (Nat.isDigit_of_mem_toDigits (by decide) (by decide) (List.mem_of_mem_head? hc))
  · rw [List.getLast?_append_of_ne_nil _ h.ne_nil] at hc
    exact h.last c hc

theorem Trails.calendarMonths?_append (h : Trails tail) (n : Nat) :
    calendarMonths? (Nat.toDigits 10 n ++ tail) =
      if 0x100000000 ≤ n then none else monthsOf? n (String.ofList tail) := by
  have hdigit : ∀ c ∈ Nat.toDigits 10 n, c.isDigit = true :=
    fun c hc => Nat.isDigit_of_mem_toDigits (by decide) (by decide) hc
  obtain ⟨c, rest, rfl⟩ := List.exists_cons_of_ne_nil h.ne_nil
  have hc : ¬ c.isDigit = true := by simp [h.digit c rfl]
  have htake : (Nat.toDigits 10 n ++ c :: rest).takeWhile Char.isDigit = Nat.toDigits 10 n := by
    rw [List.takeWhile_append_of_pos hdigit, List.takeWhile_cons_of_neg hc, List.append_nil]
  have hdrop : (Nat.toDigits 10 n ++ c :: rest).dropWhile Char.isDigit = c :: rest := by
    rw [List.dropWhile_append_of_pos hdigit, List.dropWhile_cons_of_neg hc]
  simp only [calendarMonths?, htake, hdrop, Nat.ofDigitChars_ten_toDigits, Nat.toDigits_ne_nil,
    false_or, Text.trim_eq_self h.head h.last]

/-- A count with a calendar unit behind it is a calendar width. -/
theorem Trails.parse_months (h : Trails tail) (htext : text.toList = Nat.toDigits 10 n ++ tail)
    (hlt : n < 0x100000000) (hmonths : monthsOf? n (String.ofList tail) = some m) (hpos : 0 < m) :
    parse text = .ok (.months m) := by
  obtain ⟨k, rfl⟩ : ∃ k, m = k + 1 := ⟨m - 1, by omega⟩
  simp only [parse, htext, h.trim_append, h.calendarMonths?_append, if_neg (Nat.not_le.mpr hlt),
    hmonths]

/-- Any other text is a fixed width if it is a duration. -/
theorem Trails.parse_millis (h : Trails tail) (htext : text.toList = Nat.toDigits 10 n ++ tail)
    (hmonths : monthsOf? n (String.ofList tail) = none)
    (hmillis : Duration.parseMillis text = .ok m) (hpos : 0 < m) :
    parse text = .ok (.millis m) := by
  obtain ⟨k, rfl⟩ : ∃ k, m = k + 1 := ⟨m - 1, by omega⟩
  simp only [parse, htext, h.trim_append, h.calendarMonths?_append, hmonths, ite_self]
  rw [← htext, String.ofList_toList, hmillis]
  rfl

/-! ## Calendar widths -/

theorem trails_letters {letters : List Char} (hne : letters ≠ [])
    (h : ∀ c ∈ letters, Letter c) : Trails letters :=
  ⟨hne, fun c hc => (h c (List.mem_of_mem_head? hc)).digit,
    fun c hc => (h c (List.mem_of_mem_head? hc)).blank,
    fun c hc => (h c (List.mem_of_getLast? hc)).blank⟩

theorem parse_format_months (hpos : 0 < n) (hlt : n < 0x100000000) :
    parse (format (.months n)) = .ok (.months n) := by
  have hdigits : ∀ k, (toString k).toList = Nat.toDigits 10 k := fun _ => Nat.toList_repr
  rw [format]
  split
  · rename_i hyears
    have htrails : Trails ['y'] :=
      trails_letters (by decide) (List.forall_mem_singleton.mpr (by decide))
    refine htrails.parse_months (n := n / 12) ?_ (by omega) ?_ hpos
    · rw [String.toList_append, hdigits]
      rfl
    · have hcount : n / 12 * 12 = n := by omega
      have hunit : String.ofList ['y'] = "y" := rfl
      rw [hunit, monthsOf?, if_neg (by decide), if_pos (by decide), hcount, if_pos hlt]
  · have htrails : Trails ['M'] :=
      trails_letters (by decide) (List.forall_mem_singleton.mpr (by decide))
    refine htrails.parse_months (n := n) ?_ hlt ?_ hpos
    · rw [String.toList_append, hdigits]
      rfl
    · exact if_pos (by decide)

/-! ## Fixed widths -/

/-- What follows the first number in a row of parts. -/
def tailOf (p : Part) : List Part → List Char
  | [] => p.name.toList
  | q :: ps => p.name.toList ++ ' ' :: (" ".intercalate ((q :: ps).map Part.text)).toList

theorem toList_parts (p : Part) (ps : List Part) :
    (" ".intercalate ((p :: ps).map Part.text)).toList =
      Nat.toDigits 10 p.count ++ tailOf p ps := by
  cases ps with
  | nil => rw [List.map_singleton, String.intercalate_singleton, p.toList_text, tailOf]
  | cons q ps =>
      rw [List.map_cons, List.map_cons, String.intercalate_cons_cons, String.toList_append,
        String.toList_append, p.toList_text, tailOf, List.append_assoc, List.append_assoc]
      rfl

theorem exists_last_tailOf (p : Part) (ps : List Part) :
    ∃ front c, tailOf p ps = front ++ [c] ∧ Letter c := by
  induction ps generalizing p with
  | nil =>
      obtain ⟨hne, hletters⟩ := Duration.Unit.letters_of_ofName? p.named
      exact ⟨_, _, (List.dropLast_append_getLast hne).symm, hletters _ (List.getLast_mem hne)⟩
  | cons q ps ih =>
      obtain ⟨front, c, hlast, hc⟩ := ih q
      refine ⟨p.name.toList ++ ' ' :: (Nat.toDigits 10 q.count ++ front), c, ?_, hc⟩
      rw [tailOf, toList_parts, hlast]
      simp

theorem trails_tailOf (p : Part) (ps : List Part) : Trails (tailOf p ps) := by
  obtain ⟨hne, hletters⟩ := Duration.Unit.letters_of_ofName? p.named
  obtain ⟨c, letters, hname⟩ := List.exists_cons_of_ne_nil hne
  have hhead : ∀ d ∈ (tailOf p ps).head?, Letter d := by
    intro d hd
    have hfirst : (tailOf p ps).head? = some c := by cases ps <;> simp [tailOf, hname]
    rw [hfirst] at hd
    cases hd
    exact hletters c (hname ▸ List.mem_cons_self)
  obtain ⟨front, last, hlast, hletter⟩ := exists_last_tailOf p ps
  refine ⟨?_, fun d hd => (hhead d hd).digit, fun d hd => (hhead d hd).blank, fun d hd => ?_⟩
  · simp [hlast]
  · rw [hlast, List.getLast?_concat] at hd
    cases hd
    exact hletter.blank

theorem monthsOf?_eq_none {name : String}
    (h : name ∉ ["M", "mo", "month", "months"] ++ ["y", "Y", "year", "years"]) (n : Nat) :
    monthsOf? n name = none := by
  rw [List.mem_append, not_or] at h
  rw [monthsOf?, if_neg h.1, if_neg h.2]

/-- More than one part is no calendar width. -/
theorem monthsOf?_tailOf_cons (n : Nat) (p q : Part) (ps : List Part) :
    monthsOf? n (String.ofList (tailOf p (q :: ps))) = none := by
  have hplain : ∀ name ∈ ["M", "mo", "month", "months"] ++ ["y", "Y", "year", "years"],
      ' ' ∉ name.toList := by decide
  refine monthsOf?_eq_none (fun hmem => hplain _ hmem ?_) n
  rw [String.toList_ofList, tailOf]
  exact List.mem_append_right _ List.mem_cons_self

theorem monthsOf?_tailOf_nil (n : Nat) {p : Part} (hmonth : p.unit ≠ .month)
    (hyear : p.unit ≠ .year) : monthsOf? n (String.ofList (tailOf p [])) = none := by
  have hunits : ∀ name ∈ ["M", "mo", "month", "months"] ++ ["y", "Y", "year", "years"],
      ∀ unit ∈ Duration.Unit.ofName? name, unit = .month ∨ unit = .year := by decide
  rw [tailOf, String.ofList_toList]
  refine monthsOf?_eq_none (fun hmem => ?_) n
  rcases hunits _ hmem p.unit p.named with hunit | hunit
  · exact hmonth hunit
  · exact hyear hunit

/-! ## Whole years and months -/

/-- The milliseconds of a year and of a month, as durations have them. -/
def yearMillis : Nat := 31557600000

def monthMillis : Nat := 2630016000

/-- Fixed widths that are shown as a count of years, or of months short of a year. -/
def ShownAsCalendar (n : Nat) : Prop :=
  n % yearMillis = 0 ∨ n % monthMillis = 0 ∧ n < yearMillis

instance (n : Nat) : Decidable (ShownAsCalendar n) := by unfold ShownAsCalendar; infer_instance

/-- What an interval is read back as. -/
def reread : Interval → Interval
  | .months n => .months n
  | .millis n =>
    if n.toNat % yearMillis = 0 then .months (n.toNat / yearMillis * 12)
    else if ShownAsCalendar n.toNat then .months (n.toNat / monthMillis)
    else .millis n

theorem parts_of_years (hpos : 0 < n) (h : n % yearMillis = 0) :
    Part.parts (n * 1000000) = [Part.years (n * 1000000)] ∧
      (Part.years (n * 1000000)).count = n / yearMillis := by
  rw [yearMillis] at h ⊢
  have hcount : n * 1000000 / 1000000000 / 31557600 = n / 31557600000 := by omega
  have hsome : (Part.years (n * 1000000)).count ≠ 0 := by
    show n * 1000000 / 1000000000 / 31557600 ≠ 0
    omega
  refine ⟨Part.parts_eq_singleton List.mem_cons_self hsome ?_, hcount⟩
  show n * 1000000 / 1000000000 / 31557600 * (31557600 * 1000000000) = n * 1000000
  omega

theorem parts_of_months (hpos : 0 < n) (h : n % monthMillis = 0) (hlt : n < yearMillis) :
    Part.parts (n * 1000000) = [Part.months (n * 1000000)] ∧
      (Part.months (n * 1000000)).count = n / monthMillis := by
  rw [yearMillis] at hlt
  rw [monthMillis] at h ⊢
  have hcount : n * 1000000 / 1000000000 % 31557600 / 2630016 = n / 2630016000 := by omega
  have hsome : (Part.months (n * 1000000)).count ≠ 0 := by
    show n * 1000000 / 1000000000 % 31557600 / 2630016 ≠ 0
    omega
  refine ⟨Part.parts_eq_singleton (List.mem_cons_of_mem _ List.mem_cons_self) hsome ?_, hcount⟩
  show n * 1000000 / 1000000000 % 31557600 / 2630016 * (2630016 * 1000000000) = n * 1000000
  omega

/-- No other width is shown as months or years alone. -/
theorem unit_of_parts {p : Part} (h : Part.parts (n * 1000000) = [p]) (hn : ¬ ShownAsCalendar n) :
    p.unit ≠ .month ∧ p.unit ≠ .year := by
  have htotal := Part.total_parts (n * 1000000)
  have hone : Part.total [p] = p.nanos := Nat.add_zero _
  rw [h, hone] at htotal
  rw [ShownAsCalendar, not_or, yearMillis, monthMillis] at hn
  obtain ⟨hyear, hmonth⟩ := hn
  obtain ⟨q, hq, hp⟩ := List.mem_flatMap.mp (h ▸ List.mem_singleton_self p)
  cases Part.eq_of_mem_shown hp
  rcases List.mem_cons.mp hq with rfl | hq
  · have hnanos : n * 1000000 / 1000000000 / 31557600 * (31557600 * 1000000000) = n * 1000000 :=
      htotal
    omega
  rcases List.mem_cons.mp hq with rfl | hq
  · have hnanos : n * 1000000 / 1000000000 % 31557600 / 2630016 * (2630016 * 1000000000) =
        n * 1000000 := htotal
    omega
  · exact Part.unit_of_mem_lesser hq

/-- A width that is a signed word is shown as the duration it stands for. -/
theorem format_millis (hlt : n < Word.signedLimit) :
    format (.millis n) = Duration.format (n * 1000000) := by
  have hword : n < Word.unsignedLimit := Nat.lt_trans hlt (by decide)
  rw [format, Word.wrapUnsigned_of_fits hword]

theorem toList_format_millis {p : Part} {ps : List Part} (hlt : n < Word.signedLimit)
    (h : Part.parts (n * 1000000) = p :: ps) :
    (format (.millis n)).toList = Nat.toDigits 10 p.count ++ tailOf p ps := by
  rw [format_millis hlt, Duration.format_eq, h, if_neg (List.cons_ne_nil p ps), toList_parts]

theorem parse_format_years (hpos : 0 < n) (hlt : n < Word.signedLimit) (h : n % yearMillis = 0) :
    parse (format (.millis n)) = .ok (.months (n / yearMillis * 12)) := by
  obtain ⟨hparts, hcount⟩ := parts_of_years hpos h
  have htext := toList_format_millis hlt hparts
  have hmonths : n / yearMillis * 12 < 0x100000000 := by
    rw [Word.signedLimit] at hlt
    rw [yearMillis]
    omega
  rw [hcount] at htext
  refine (trails_tailOf _ []).parse_months htext (by omega) ?_ ?_
  · have hname : (Part.years (n * 1000000)).name ∈ ["y", "Y", "year", "years"] ∧
        (Part.years (n * 1000000)).name ∉ ["M", "mo", "month", "months"] := by
      rw [Part.name_years]
      split <;> decide
    rw [tailOf, String.ofList_toList, monthsOf?, if_neg hname.2, if_pos hname.1, if_pos hmonths]
  · rw [yearMillis] at h ⊢
    omega

theorem parse_format_short_months (hpos : 0 < n) (h : n % monthMillis = 0) (hlt : n < yearMillis) :
    parse (format (.millis n)) = .ok (.months (n / monthMillis)) := by
  obtain ⟨hparts, hcount⟩ := parts_of_months hpos h hlt
  have htext := toList_format_millis (Nat.lt_trans hlt (by decide)) hparts
  rw [hcount] at htext
  rw [yearMillis] at hlt
  rw [monthMillis] at h htext ⊢
  refine (trails_tailOf _ []).parse_months htext (by omega) ?_ (by omega)
  have hname : (Part.months (n * 1000000)).name ∈ ["M", "mo", "month", "months"] := by
    rw [Part.name_months]
    split <;> decide
  rw [tailOf, String.ofList_toList, monthsOf?, if_pos hname]

theorem parse_format_fixed (hpos : 0 < n) (hlt : n < Word.signedLimit) (h : ¬ ShownAsCalendar n) :
    parse (format (.millis n)) = .ok (.millis n) := by
  have hmillis : Duration.parseMillis (format (.millis n)) = .ok n := by
    rw [format_millis hlt, Duration.parseMillis_format hlt]
  have htotal := Part.total_parts (n * 1000000)
  cases hparts : Part.parts (n * 1000000) with
  | nil =>
      rw [hparts, Part.total] at htotal
      omega
  | cons p ps =>
      refine (trails_tailOf p ps).parse_millis (toList_format_millis hlt hparts) ?_ hmillis hpos
      cases ps with
      | nil =>
          obtain ⟨hmonth, hyear⟩ := unit_of_parts hparts h
          exact monthsOf?_tailOf_nil _ hmonth hyear
      | cons q ps => exact monthsOf?_tailOf_cons _ p q ps

/-- Every fixed width that is a signed word is read back as the duration it is shown as, to the
millisecond; only as an interval may its text stand for another width. -/
theorem parseMillis_format_millis {n : Nat} (h : n < Word.signedLimit) :
    Duration.parseMillis (format (.millis n)) = .ok n := by
  rw [format_millis h]
  exact Duration.parseMillis_format h

theorem parseMillis_format_millis_longest :
    9223372036854775807 < Word.signedLimit ∧
      format (.millis 9223372036854775807) = "292271023years 16days 13h 12m 55s 807ms" ∧
      Duration.parseMillis (format (.millis 9223372036854775807)) = .ok 9223372036854775807 :=
  ⟨by decide, by decide +kernel, parseMillis_format_millis (by decide)⟩

/-! ## All intervals -/

/-- The intervals that texts give. -/
def Given : Interval → Prop
  | .millis n => 0 < n ∧ n < Word.signedLimit
  | .months n => 0 < n ∧ n < 0x100000000

theorem lt_of_monthsOf? {unit : String} (hlt : n < 0x100000000) (h : monthsOf? n unit = some m) :
    m < 0x100000000 := by
  rw [monthsOf?] at h
  split at h
  · cases h
    exact hlt
  · split at h
    · split at h
      · cases h
        assumption
      · cases h
    · cases h

theorem lt_of_calendarMonths? {cs : List Char} (h : calendarMonths? cs = some m) :
    m < 0x100000000 := by
  rw [calendarMonths?] at h
  split at h
  · cases h
  · rename_i hcount
    exact lt_of_monthsOf? (by omega) h

theorem lt_of_parseMillis (h : Duration.parseMillis text = .ok n) : n < Word.signedLimit := by
  simp only [Duration.parseMillis] at h
  split at h
  · cases h
  · split at h
    · cases h
      assumption
    · cases h

theorem given_of_parse {every : Interval} (h : parse text = .ok every) : every.Given := by
  simp only [parse] at h
  split at h
  · cases h
  · rename_i hne hmonths
    cases h
    exact ⟨Nat.pos_of_ne_zero fun hzero => hne hzero, lt_of_calendarMonths? hmonths⟩
  · split at h
    · cases h
    · cases h
    · rename_i hne hmillis
      cases h
      exact ⟨Int.natCast_pos.mpr (Nat.pos_of_ne_zero fun hzero => hne hzero),
        Int.ofNat_lt.mpr (lt_of_parseMillis hmillis)⟩

theorem Given.parse_format {every : Interval} (h : every.Given) :
    parse every.format = .ok every.reread := by
  cases every with
  | months n => exact parse_format_months h.1 h.2
  | millis n =>
      obtain ⟨hpos, hlt⟩ := h
      obtain ⟨n, rfl⟩ := Int.eq_ofNat_of_zero_le (Int.le_of_lt hpos)
      have hpos := Int.natCast_pos.mp hpos
      have hlt := Int.ofNat_lt.mp hlt
      simp only [reread, Int.toNat_natCast]
      split
      · rename_i hyears
        exact parse_format_years hpos hlt hyears
      · rename_i hyears
        split
        · rename_i hmonths
          obtain ⟨hmonths, hlt⟩ := hmonths.resolve_left hyears
          exact parse_format_short_months hpos hmonths hlt
        · rename_i hfixed
          exact parse_format_fixed hpos hlt hfixed

theorem reread_eq_self (every : Interval) :
    every.reread = every ↔ ∀ n, every = .millis n → ¬ ShownAsCalendar n.toNat := by
  cases every with
  | months n => exact ⟨fun _ _ => nofun, fun _ => rfl⟩
  | millis n =>
      rw [reread]
      split
      · rename_i hyears
        exact ⟨nofun, fun h => absurd (.inl hyears) (h n rfl)⟩
      · split
        · rename_i hmonths
          exact ⟨nofun, fun h => absurd hmonths (h n rfl)⟩
        · rename_i hfixed
          exact ⟨fun _ k hk => by cases hk; exact hfixed, fun _ => rfl⟩

/-- An interval that a text gives is read back from the text it is written as, and is the same
unless it is a fixed width that is shown as years or months. -/
theorem parse_format_reread {every : Interval} (h : parse text = .ok every) :
    parse every.format = .ok every.reread ∧
      (every.reread = every ↔ ∀ n, every = .millis n → ¬ ShownAsCalendar n.toNat) :=
  ⟨(given_of_parse h).parse_format, every.reread_eq_self⟩

theorem parse_format_reread_minutes :
    parse " 90m " = .ok (.millis 5400000) ∧
      parse (format (.millis 5400000)) = .ok (reread (.millis 5400000)) ∧
      (reread (.millis 5400000) = .millis 5400000 ↔
        ∀ n, Interval.millis 5400000 = .millis n → ¬ ShownAsCalendar n.toNat) :=
  have h : parse " 90m " = .ok (.millis 5400000) := by decide +kernel
  ⟨h, parse_format_reread h⟩

/-- A fixed width that is read back as a calendar month. -/
theorem month_of_fixed_width :
    parse "2630016s" = .ok (.millis 2630016000) ∧ format (.millis 2630016000) = "1month" ∧
      parse "1month" = .ok (.months 1) := by
  decide +kernel

end Interval
end Sluice
