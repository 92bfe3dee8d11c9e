import Sluice.Proofs.Rounding
import Sluice.Proofs.Selection

/-!
The store's order of values. Two values are ordered on the first scale that both are on: numbers by
their size, times by their instants, texts by their letters. A value may be on two scales, so that
the order is transitive only among values that do not lead from one scale to another.
-/
namespace Sluice

namespace Json

open Moment (storedUnits firstStoredSecond lastStoredSecond nanosPerMilli)

variable {a b c : Json} {m n s t : Int} {unit : Nat}

/-! ## Times -/

/-- The instant of a stored time, at the millisecond. -/
def instant? (value : Json) : Option Int :=
  (Moment.ofStored? value).map (·.truncateMillis.nanos)

/-- The unit in which a whole number counts the seconds of a time, as how many make one. -/
def unit? (n : Int) : Option Nat :=
  storedUnits.find? fun (unit : Nat) =>
    firstStoredSecond * unit ≤ n ∧ n ≤ lastStoredSecond * unit

theorem bounds_of_unit? (h : unit? n = some unit) :
    unit ∈ storedUnits ∧ firstStoredSecond * unit ≤ n ∧ n ≤ lastStoredSecond * unit := by
  refine ⟨List.mem_of_find?_eq_some h, ?_⟩
  have hrange := List.find?_some h
  exact of_decide_eq_true hrange

/-- A number that counts the seconds of a time is a word. -/
theorem eq_natCast_of_unit? (h : unit? n = some unit) :
    ∃ count : Nat, n = count ∧ count < Word.signedLimit := by
  obtain ⟨hunit, hfirst, hlast⟩ := bounds_of_unit? h
  have hlimit : 0 ≤ n ∧ n < Word.signedLimit := by
    simp only [storedUnits, List.mem_cons, List.not_mem_nil, or_false] at hunit
    simp only [firstStoredSecond, lastStoredSecond, Word.signedLimit] at *
    rcases hunit with rfl | rfl | rfl | rfl <;> omega
  obtain ⟨count, rfl⟩ := Int.eq_ofNat_of_zero_le hlimit.1
  exact ⟨count, rfl, Int.ofNat_lt.mp hlimit.2⟩

/-- Past the signed words a number is past the last time also after rounding. -/
theorem units_of_not_fitsSigned {x : Binary64} (h : ¬ Word.FitsSigned n)
    (hx : Binary64.ofInt? n = some x) :
    x.units ≤ 0 ∨ ((lastStoredSecond * 1000000 * Binary64.unitsPerOne : Nat) : Int) < x.units := by
  rcases Int.lt_or_le n 0 with hneg | hpos
  · obtain ⟨hsign, -⟩ := Binary64.nearest?_eq_some hx
    rw [decide_eq_true hneg] at hsign
    rw [Binary64.units, hsign]
    exact .inl (by simp)
  · obtain ⟨count, rfl⟩ := Int.eq_ofNat_of_zero_le hpos
    have hlarge : Word.signedLimit ≤ count := by
      simp only [Word.FitsSigned] at h
      omega
    have hscaled := Nat.mul_le_mul_right Binary64.unitsPerOne hlarge
    have hnear := (Binary64.rounded_near (count * Binary64.unitsPerOne)).1
    have hunits := Binary64.unitsPerOne_pos
    rw [Binary64.units_ofInt? hx]
    simp only [lastStoredSecond, Word.signedLimit] at *
    generalize Binary64.unitsPerOne = perOne at *
    exact .inr (by omega)

theorem ofStoredFloat_of_not_fitsSigned {x : Binary64} (h : ¬ Word.FitsSigned n)
    (hx : Binary64.ofInt? n = some x) : (Moment.ofStoredFloat x).toOption = none := by
  have hfar := units_of_not_fitsSigned h hx
  have hnone : ((storedUnits.take 3).find? fun (unit : Nat) =>
      (firstStoredSecond * unit * Binary64.unitsPerOne : Nat) ≤ x.units ∧
        x.units ≤ (lastStoredSecond * unit * Binary64.unitsPerOne : Nat)) = none := by
    refine List.find?_eq_none.mpr fun unit hunit hrange => ?_
    obtain ⟨hfirst, hlast⟩ := of_decide_eq_true hrange
    have hunits := Binary64.unitsPerOne_pos
    simp only [storedUnits, List.take_succ_cons, List.take_zero, List.mem_cons, List.not_mem_nil,
      or_false] at hunit
    simp only [firstStoredSecond, lastStoredSecond] at *
    generalize Binary64.unitsPerOne = perOne at *
    rcases hunit with rfl | rfl | rfl <;> omega
  simp only [Moment.ofStoredFloat, hnone]
  rfl

theorem ofStored?_int (n : Int) :
    Moment.ofStored? (.number (.int n)) =
      (unit? n).map fun unit => Moment.utc (n * (1000000000 / unit : Nat)) := by
  by_cases hword : Word.FitsSigned n
  · simp only [Moment.ofStored?, Moment.ofStored, if_pos hword, Moment.ofStoredInt, unit?]
    split
    · rename_i hunit
      rw [hunit]
      rfl
    · rename_i hunit
      rw [hunit]
      rfl
  · have hunit : unit? n = none := by
      refine Option.eq_none_iff_forall_ne_some.mpr fun unit hunit => hword ?_
      obtain ⟨count, rfl, hcount⟩ := eq_natCast_of_unit? hunit
      simp only [Word.FitsSigned]
      omega
    rw [hunit]
    simp only [Moment.ofStored?, Moment.ofStored, if_neg hword, Option.map_none]
    cases hx : Binary64.ofInt? n with
    | none => rfl
    | some x => exact ofStoredFloat_of_not_fitsSigned hword hx

theorem exists_ofInt? (h : unit? n = some unit) : ∃ x, Binary64.ofInt? n = some x := by
  obtain ⟨count, rfl, hcount⟩ := eq_natCast_of_unit? h
  refine Option.isSome_iff_exists.mp (Binary64.isSome_ofInt? ?_)
  simp only [Word.signedLimit] at hcount
  omega

theorem instant?_int (n : Int) :
    instant? (.number (.int n)) = (unit? n).map fun unit =>
      (Moment.utc (n * (1000000000 / unit : Nat))).truncateMillis.nanos := by
  rw [instant?, ofStored?_int, Option.map_map]
  rfl

theorem exists_instant?_int (h : unit? n = some unit) :
    ∃ s, (Json.number (.int n)).instant? = some s :=
  ⟨_, by rw [instant?_int, h]; rfl⟩

theorem exists_count (h : unit? n = some unit) (hs : (Json.number (.int n)).instant? = some s) :
    ∃ count : Nat, n = count ∧ unit ∈ [1, 1000, 1000000, 1000000000] ∧
      count ≤ lastStoredSecond * unit ∧
      s = count * (1000000000 / unit : Nat) - count * (1000000000 / unit : Nat) % nanosPerMilli := by
  rw [instant?_int, h] at hs
  cases hs
  obtain ⟨hunit, -, hlast⟩ := bounds_of_unit? h
  obtain ⟨count, rfl, -⟩ := eq_natCast_of_unit? h
  exact ⟨count, rfl, hunit, by omega, Moment.truncateMillis_nanos _⟩

theorem instant?_text (u : String) :
    instant? (.text u) = (Moment.parse? u).map (·.truncateMillis.nanos) := by
  rw [instant?, Moment.ofStored?_text]

/-! ## Scales -/

/-- What tells the place of a value among others. -/
inductive Scale where
  /-- The size of a number that is no time. -/
  | size
  /-- The instant that a number counts in a unit, or its size among numbers. -/
  | counted (unit : Nat)
  /-- The instant that a text names, or its letters next to a text that names none. -/
  | clock
  /-- The letters of any other text. -/
  | letters
deriving DecidableEq

def Scale.isNumber : Scale → Bool
  | .size | .counted _ => true
  | _ => false

def Scale.isTime : Scale → Bool
  | .counted _ | .clock => true
  | _ => false

/-- The scale of a value; binary64 numbers are left aside. -/
def scale? : Json → Option Scale
  | .number (.int n) => some ((unit? n).elim .size .counted)
  | .text s => some (if (Moment.parse? s).isSome then .clock else .letters)
  | _ => none

/-- Not a binary64 number. -/
def Exact : Json → Prop
  | .number (.float _) => False
  | _ => True

theorem Exact.int_of_binary64? {x : Binary64} (ha : a.Exact) (h : a.binary64? = some x) :
    ∃ m, a = .number (.int m) ∧ Binary64.ofInt? m = some x := by
  cases a with
  | number number =>
      cases number with
      | int m => exact ⟨m, rfl, h⟩
      | float _ => exact ha.elim
  | _ => cases h

theorem clock_of_text {u : String} (h : (Json.text u).instant? = some s) :
    (Json.text u).scale? = some .clock := by
  rw [instant?_text] at h
  obtain ⟨m, hm, -⟩ := Option.map_eq_some_iff.mp h
  rw [scale?, hm]
  rfl

/-- A time is a number that counts it, or a text. -/
theorem Exact.of_instant? (ha : a.Exact) (h : a.instant? = some s) :
    (∃ n unit, a = .number (.int n) ∧ unit? n = some unit) ∨ a.scale? = some .clock := by
  cases a with
  | number number =>
      cases number with
      | int n =>
          rw [instant?_int] at h
          obtain ⟨unit, hunit, -⟩ := Option.map_eq_some_iff.mp h
          exact .inl ⟨n, unit, rfl, hunit⟩
      | float _ => exact ha.elim
  | text u => exact .inr (clock_of_text h)
  | _ => cases h

theorem isTime_of_instant? (ha : a.Exact) (h : a.instant? = some s) :
    a.scale?.any Scale.isTime = true := by
  rcases ha.of_instant? h with ⟨n, unit, rfl, hunit⟩ | hclock
  · rw [scale?, hunit]
    rfl
  · rw [hclock]
    rfl

theorem text_of_clock (h : a.scale? = some .clock) : ∃ u, a = .text u := by
  cases a with
  | number number =>
      cases number with
      | int n =>
          simp only [scale?] at h
          cases hunit : unit? n <;> simp [hunit] at h
      | float _ => cases h
  | text u => exact ⟨u, rfl⟩
  | _ => cases h

theorem not_clock_int : (Json.number (.int n)).scale? ≠ some .clock := fun h => by
  obtain ⟨_, ⟨⟩⟩ := text_of_clock h

theorem letters_iff {u : String} :
    (Json.text u).scale? = some .letters ↔ (Json.text u).instant? = none := by
  rw [instant?_text, scale?]
  cases Moment.parse? u <;> simp

theorem not_letters {u : String} (h : (Json.text u).instant? = some s) :
    (Json.text u).scale? ≠ some .letters := fun hletters => by
  cases (letters_iff.mp hletters).symm.trans h

/-! ## The order -/

/-- Which value comes first, by the scale that tells it. -/
inductive Precedes : Json → Json → Prop
  | size {m n : Int} {x y : Binary64} (hx : Binary64.ofInt? m = some x)
      (hy : Binary64.ofInt? n = some y) (h : x.units < y.units) :
      Precedes (.number (.int m)) (.number (.int n))
  | instant {a b : Json} {s t : Int}
      (hclock : a.scale? = some .clock ∨ b.scale? = some .clock)
      (hs : a.instant? = some s) (ht : b.instant? = some t) (h : s < t) : Precedes a b
  | letters {u v : String}
      (hplain : (Json.text u).scale? = some .letters ∨ (Json.text v).scale? = some .letters)
      (h : u < v) : Precedes (.text u) (.text v)

theorem order?_sizes {x y : Binary64} (hx : a.binary64? = some x) (hy : b.binary64? = some y) :
    a.order? b = some (compare x.units y.units) := by
  simp only [order?, hx, hy, Binary64.cmp]

theorem order?_instants (h : a.scale? = some .clock ∨ b.scale? = some .clock)
    (hs : a.instant? = some s) (ht : b.instant? = some t) :
    a.order? b = some (compare s t) := by
  obtain ⟨p, hp, rfl⟩ := Option.map_eq_some_iff.mp hs
  obtain ⟨q, hq, rfl⟩ := Option.map_eq_some_iff.mp ht
  rcases h with hclock | hclock
  · obtain ⟨u, rfl⟩ := text_of_clock hclock
    simp only [order?, binary64?, hp, hq]
  · obtain ⟨u, rfl⟩ := text_of_clock hclock
    simp only [order?, hp, hq]
    cases a.binary64? <;> rfl

theorem order?_eq_lt (ha : a.Exact) (hb : b.Exact) :
    a.order? b = some .lt ↔ Precedes a b := by
  constructor
  · intro h
    simp only [order?] at h
    split at h
    · rename_i x y hx hy
      obtain ⟨m, rfl, hx⟩ := ha.int_of_binary64? hx
      obtain ⟨n, rfl, hy⟩ := hb.int_of_binary64? hy
      exact .size hx hy (Int.compare_eq_lt.mp (Option.some.inj h))
    · rename_i hsizes
      split at h
      · rename_i p q hp hq
        have hs : a.instant? = some p.truncateMillis.nanos := by rw [instant?, hp]; rfl
        have ht : b.instant? = some q.truncateMillis.nanos := by rw [instant?, hq]; rfl
        refine .instant ?_ hs ht (Int.compare_eq_lt.mp (Option.some.inj h))
        rcases ha.of_instant? hs with ⟨m, _, rfl, hm⟩ | hclock
        · rcases hb.of_instant? ht with ⟨n, _, rfl, hn⟩ | hclock
          · obtain ⟨x, hx⟩ := exists_ofInt? hm
            obtain ⟨y, hy⟩ := exists_ofInt? hn
            exact (hsizes x y hx hy).elim
          · exact .inr hclock
        · exact .inl hclock
      · rename_i hinstants
        split at h
        · rename_i u v
          refine .letters ?_ (compareOfLessAndEq_eq_lt.mp (Option.some.inj h))
          simp only [letters_iff, instant?, Option.map_eq_none_iff]
          cases hp : Moment.ofStored? (.text u) with
          | none => exact .inl rfl
          | some p =>
              cases hq : Moment.ofStored? (.text v) with
              | none => exact .inr rfl
              | some q => exact (hinstants p q hp hq).elim
        · split at h <;> cases h
  · intro h
    cases h with
    | @size m n x y hx hy h =>
        have hsizes := @order?_sizes (.number (.int m)) (.number (.int n)) x y hx hy
        rw [hsizes, Int.compare_eq_lt.mpr h]
    | instant hclock hs ht h => rw [order?_instants hclock hs ht, Int.compare_eq_lt.mpr h]
    | @letters u v hplain h =>
        have hcompare : compare u v = .lt := compareOfLessAndEq_eq_lt.mpr h
        simp only [letters_iff, instant?, Option.map_eq_none_iff] at hplain
        simp only [order?, binary64?, hcompare]
        rcases hplain with hp | hp
        · rw [hp]
        · rw [hp]
          cases Moment.ofStored? (.text u) <;> rfl

/-! ## Transitivity -/

/-- Among the values is a text that is a time, and it is told from some of the others by its instant
and from some by its letters, or it is told by its instant from numbers that are told from each other
by their sizes. -/
inductive Torn (scales : List (Option Scale)) : Prop
  | letters (hclock : some .clock ∈ scales) (hletters : some .letters ∈ scales)
      (htimes : 2 ≤ scales.countP (·.any Scale.isTime))
  | sizes {unit : Nat} {number : Scale} (hclock : some .clock ∈ scales)
      (hunit : some (.counted unit) ∈ scales) (hnumber : some number ∈ scales)
      (h : number.isNumber) (hne : number ≠ .counted unit)

/-- Next to a text that is a time, numbers are torn unless they count in one unit. -/
theorem unit?_of_not_torn {scales : List (Option Scale)} (h : ¬ Torn scales)
    (hclock : some .clock ∈ scales) (hn : (Json.number (.int n)).scale? ∈ scales)
    (hunit : unit? n = some unit) (hm : (Json.number (.int m)).scale? ∈ scales) :
    unit? m = some unit := by
  by_contra hother
  rw [scale?, hunit] at hn
  refine h (.sizes hclock hn hm ?_ ?_)
  · cases unit? m <;> rfl
  · cases hm : unit? m with
    | none => exact Scale.noConfusion
    | some unit' =>
        rintro ⟨⟩
        exact hother hm

/-- In one unit, a greater number is not an earlier time. -/
theorem instants_le {x y : Binary64} (hm : unit? m = some unit) (hn : unit? n = some unit)
    (hx : Binary64.ofInt? m = some x) (hy : Binary64.ofInt? n = some y) (h : x.units < y.units)
    (hs : (Json.number (.int m)).instant? = some s) (ht : (Json.number (.int n)).instant? = some t) :
    s ≤ t := by
  obtain ⟨k, rfl, hunit, -, rfl⟩ := exists_count hm hs
  obtain ⟨l, rfl, -, -, rfl⟩ := exists_count hn ht
  have hlt := Binary64.lt_of_units_lt hx hy h
  simp only [List.mem_cons, List.not_mem_nil, or_false, nanosPerMilli] at *
  rcases hunit with rfl | rfl | rfl | rfl <;> omega

theorem sizes_lt {x y : Binary64} (hm : unit? m = some unit) (hn : unit? n = some unit)
    (hx : Binary64.ofInt? m = some x) (hy : Binary64.ofInt? n = some y)
    (hs : (Json.number (.int m)).instant? = some s) (ht : (Json.number (.int n)).instant? = some t)
    (h : s + 2 * nanosPerMilli ≤ t) : x.units < y.units := by
  obtain ⟨k, rfl, hunit, hk, rfl⟩ := exists_count hm hs
  obtain ⟨l, rfl, -, hl, rfl⟩ := exists_count hn ht
  refine Binary64.units_lt hx hy ?_
  simp only [List.mem_cons, List.not_mem_nil, or_false, nanosPerMilli, lastStoredSecond] at *
  rcases hunit with rfl | rfl | rfl | rfl <;> omega

theorem emod_of_instant? (h : a.instant? = some s) : s % nanosPerMilli = 0 := by
  obtain ⟨p, -, rfl⟩ := Option.map_eq_some_iff.mp h
  exact p.truncateMillis_emod

/-- A time between two numbers keeps these apart by two milliseconds. -/
theorem Precedes.of_between {r : Int} (hm : unit? m = some unit) (hn : unit? n = some unit)
    (hr : (Json.number (.int m)).instant? = some r) (hs : a.instant? = some s)
    (ht : (Json.number (.int n)).instant? = some t) (hrs : r < s) (hst : s < t) :
    Precedes (.number (.int m)) (.number (.int n)) := by
  obtain ⟨x, hx⟩ := exists_ofInt? hm
  obtain ⟨y, hy⟩ := exists_ofInt? hn
  refine .size hx hy (sizes_lt hm hn hx hy hr ht ?_)
  have hrmillis := emod_of_instant? hr
  have hsmillis := emod_of_instant? hs
  have htmillis := emod_of_instant? ht
  simp only [nanosPerMilli] at *
  omega

theorem Precedes.trans (ha : a.Exact) (hb : b.Exact) (hc : c.Exact)
    (h : ¬ Torn [a.scale?, b.scale?, c.scale?]) (hab : Precedes a b) (hbc : Precedes b c) :
    Precedes a c := by
  have hmema : a.scale? ∈ [a.scale?, b.scale?, c.scale?] := by simp
  have hmemb : b.scale? ∈ [a.scale?, b.scale?, c.scale?] := by simp
  have hmemc : c.scale? ∈ [a.scale?, b.scale?, c.scale?] := by simp
  cases hab with
  | @size m n x y hx hy hxy =>
      cases hbc with
      | @size _ k _ z hy' hz hyz =>
          cases hy.symm.trans hy'
          exact .size hx hz (Int.lt_trans hxy hyz)
      | @instant _ _ s t hclock hs ht hst =>
          -- The text is last, and both numbers count in one unit.
          have hlast := hclock.resolve_left not_clock_int
          obtain ⟨_, unit, ⟨⟩, hn⟩ := (hb.of_instant? hs).resolve_right not_clock_int
          have hm := unit?_of_not_torn h (hlast ▸ hmemc) hmemb hn hmema
          obtain ⟨r, hr⟩ := exists_instant?_int hm
          have hrs := instants_le hm hn hx hy hxy hr hs
          exact .instant (.inr hlast) hr ht (Int.lt_of_le_of_lt hrs hst)
  | @instant _ _ r s hclock hr hs hrs =>
      cases hbc with
      | @size n k y z hy hz hyz =>
          have hfirst := hclock.resolve_right not_clock_int
          obtain ⟨_, unit, ⟨⟩, hn⟩ := (hb.of_instant? hs).resolve_right not_clock_int
          have hk := unit?_of_not_torn h (hfirst ▸ hmema) hmemb hn hmemc
          obtain ⟨t, ht⟩ := exists_instant?_int hk
          have hst := instants_le hn hk hy hz hyz hs ht
          exact .instant (.inl hfirst) hr ht (Int.lt_of_lt_of_le hrs hst)
      | @instant _ _ _ t hclock' hs' ht hst =>
          cases hs.symm.trans hs'
          rcases ha.of_instant? hr with ⟨m, unit, rfl, hm⟩ | hfirst
          · rcases hc.of_instant? ht with ⟨k, _, rfl, hk⟩ | hlast
            · -- The text is between the numbers.
              have hmiddle := hclock.resolve_left not_clock_int
              cases hk.symm.trans (unit?_of_not_torn h (hmiddle ▸ hmemb) hmema hm hmemc)
              exact .of_between hm hk hr hs ht hrs hst
            · exact .instant (.inr hlast) hr ht (Int.lt_trans hrs hst)
          · exact .instant (.inl hfirst) hr ht (Int.lt_trans hrs hst)
      | @letters u v hplain huv =>
          -- A time before a text that is one, and that before a text that is none.
          have hclock := clock_of_text hs
          have hletters := hplain.resolve_left (not_letters hs)
          refine (h (.letters (hclock ▸ hmemb) (hletters ▸ hmemc) ?_)).elim
          simp [List.countP_cons, isTime_of_instant? ha hr, isTime_of_instant? hb hs]
  | @letters u v hplain huv =>
      cases hbc with
      | @instant _ _ s t _ hs ht hst =>
          have hclock := clock_of_text hs
          have hletters := hplain.resolve_right (not_letters hs)
          refine (h (.letters (hclock ▸ hmemb) (hletters ▸ hmema) ?_)).elim
          simp [List.countP_cons, isTime_of_instant? hb hs, isTime_of_instant? hc ht]
      | @letters _ w hplain' hvw =>
          refine .letters ?_ (String.lt_trans huv hvw)
          cases hr : (Json.text u).instant? with
          | none => exact .inl (letters_iff.mpr hr)
          | some r =>
              cases ht : (Json.text w).instant? with
              | none => exact .inr (letters_iff.mpr ht)
              | some t =>
                  have hclock := clock_of_text hr
                  have hletters := hplain.resolve_left (not_letters hr)
                  refine (h (.letters (hclock ▸ hmema) (hletters ▸ hmemb) ?_)).elim
                  simp [List.countP_cons, isTime_of_instant? ha hr, isTime_of_instant? hc ht]

/-! ## Sorting -/

/-- The size of a number. -/
def size? (value : Json) : Option Int := value.binary64?.map (·.units)

/-- A time that is a text, or a number that counts it in this unit. -/
def CountsIn (unit : Nat) (value : Json) : Prop :=
  value.scale? = some .clock ∨ value.scale? = some (.counted unit)

theorem unit?_of_counted (h : a.scale? = some (.counted unit)) :
    ∃ n, a = .number (.int n) ∧ unit? n = some unit := by
  cases a with
  | number number =>
      cases number with
      | int n =>
          cases hunit : unit? n with
          | none => simp [scale?, hunit] at h
          | some unit' =>
              simp only [scale?, hunit, Option.elim_some, Option.some.injEq, Scale.counted.injEq] at h
              exact ⟨n, rfl, h ▸ hunit⟩
      | float _ => cases h
  | text u =>
      simp only [scale?] at h
      split at h <;> cases h
  | _ => cases h

theorem CountsIn.exists_instant? (h : a.CountsIn unit) : ∃ s, a.instant? = some s := by
  rcases h with hclock | hcounted
  · obtain ⟨u, rfl⟩ := text_of_clock hclock
    cases hs : (Json.text u).instant? with
    | none => cases hclock.symm.trans (letters_iff.mpr hs)
    | some s => exact ⟨s, rfl⟩
  · obtain ⟨n, rfl, hn⟩ := unit?_of_counted hcounted
    exact exists_instant?_int hn

/-- Down to the millisecond, numbers of one unit are in the order of their times. -/
theorem sizes_lt_iff {x y : Binary64} (hfine : unit ≤ 1000) (hm : unit? m = some unit)
    (hn : unit? n = some unit) (hx : Binary64.ofInt? m = some x) (hy : Binary64.ofInt? n = some y)
    (hs : (Json.number (.int m)).instant? = some s) (ht : (Json.number (.int n)).instant? = some t) :
    x.units < y.units ↔ s < t := by
  obtain ⟨k, rfl, hunit, hk, rfl⟩ := exists_count hm hs
  obtain ⟨l, rfl, -, hl, rfl⟩ := exists_count hn ht
  simp only [List.mem_cons, List.not_mem_nil, or_false, nanosPerMilli, lastStoredSecond] at *
  constructor
  · intro h
    have hlt := Binary64.lt_of_units_lt hx hy h
    rcases hunit with rfl | rfl | rfl | rfl <;> omega
  · intro h
    refine Binary64.units_lt hx hy ?_
    rcases hunit with rfl | rfl | rfl | rfl <;> omega

theorem CountsIn.order? (hfine : unit ≤ 1000) (ha : a.CountsIn unit) (hb : b.CountsIn unit)
    (hs : a.instant? = some s) (ht : b.instant? = some t) :
    a.order? b = some (compare s t) := by
  rcases ha with hclock | ha
  · exact order?_instants (.inl hclock) hs ht
  rcases hb with hclock | hb
  · exact order?_instants (.inr hclock) hs ht
  obtain ⟨m, rfl, hm⟩ := unit?_of_counted ha
  obtain ⟨n, rfl, hn⟩ := unit?_of_counted hb
  obtain ⟨x, hx⟩ := exists_ofInt? hm
  obtain ⟨y, hy⟩ := exists_ofInt? hn
  have hsizes := @order?_sizes (.number (.int m)) (.number (.int n)) x y hx hy
  have hlt := sizes_lt_iff hfine hm hn hx hy hs ht
  have hgt := sizes_lt_iff hfine hn hm hy hx ht hs
  rw [hsizes, Int.compare_eq_ite_lt, Int.compare_eq_ite_lt]
  simp only [hlt, hgt]

/-- The rank of a document by its value at a field. -/
def grade (grade? : Json → Option Int) (field : String) (document : Members) : Int :=
  ((Document.lookup document field).bind grade?).getD 0

/-- Documents by the grades of their values at a field; those that have none come last. -/
def graded (grade? : Json → Option Int) (field : String) (direction : Direction)
    (documents : List Members) : List Members :=
  Sorting.byRank (fun document => direction.rank (grade grade? field document))
      (documents.filter fun document => (Document.lookup document field).isSome) ++
    documents.filter fun document => (Document.lookup document field).isNone

/-- Where the values of a field are ordered by their grades, so are the documents. -/
theorem sortBy_eq_graded {P : Json → Prop} {grade? : Json → Option Int} {field : String}
    {direction : Direction} {documents : List Members}
    (hvalues : ∀ document ∈ documents, ∀ value,
      Document.lookup document field = some value → P value)
    (hgrade : ∀ a b, P a → P b → ∃ s t, grade? a = some s ∧ grade? b = some t ∧
      a.order? b = some (compare s t)) :
    MemoryStore.sortBy field (direction = .desc) documents =
      graded grade? field direction documents := by
  refine Sorting.sortBy_eq_append fun d hd e he a b ha hb => ?_
  obtain ⟨s, t, hs, ht, horder⟩ := hgrade a b (hvalues d hd a ha) (hvalues e he b hb)
  simp only [grade, ha, hb, Option.bind_some, hs, ht, Option.getD_some, goesBefore_some horder]

/-- The order is transitive among values without binary64 numbers that are not torn. Documents are
sorted by the sizes of their values where these are numbers, and by their instants where these are
times, as texts or as numbers of one unit that counts seconds or milliseconds; documents of one size
or instant stay as they were, and documents without a value come last. -/
theorem order?_consistent (a b c : Json) (field : String) (direction : Direction)
    (documents : List Members) :
    (a.Exact → b.Exact → c.Exact → ¬ Torn [a.scale?, b.scale?, c.scale?] →
      a.order? b = some .lt → b.order? c = some .lt → a.order? c = some .lt) ∧
    ((∀ document ∈ documents, ∀ value, Document.lookup document field = some value →
        value.size?.isSome = true) →
      MemoryStore.sortBy field (direction = .desc) documents =
        graded size? field direction documents) ∧
    ∀ unit, unit ≤ 1000 →
      (∀ document ∈ documents, ∀ value, Document.lookup document field = some value →
        value.CountsIn unit) →
      MemoryStore.sortBy field (direction = .desc) documents =
        graded instant? field direction documents := by
  refine ⟨fun ha hb hc htorn hab hbc => ?_, fun hvalues => ?_, fun unit hfine hvalues => ?_⟩
  · rw [order?_eq_lt ha hb] at hab
    rw [order?_eq_lt hb hc] at hbc
    exact (order?_eq_lt ha hc).mpr (hab.trans ha hb hc htorn hbc)
  · refine sortBy_eq_graded hvalues fun a b ha hb => ?_
    obtain ⟨s, hs⟩ := Option.isSome_iff_exists.mp ha
    obtain ⟨t, ht⟩ := Option.isSome_iff_exists.mp hb
    refine ⟨s, t, hs, ht, ?_⟩
    obtain ⟨x, hx, rfl⟩ := Option.map_eq_some_iff.mp hs
    obtain ⟨y, hy, rfl⟩ := Option.map_eq_some_iff.mp ht
    exact order?_sizes hx hy
  · refine sortBy_eq_graded hvalues fun a b ha hb => ?_
    obtain ⟨s, hs⟩ := ha.exists_instant?
    obtain ⟨t, ht⟩ := hb.exists_instant?
    exact ⟨s, t, hs, ht, ha.order? hfine hb hs ht⟩

/-- A text between two numbers of milliseconds, and documents with either kind of values. -/
theorem order?_consistent_millis :
    ∃ (a b c : Json) (numbers times : List Members), a = .number (.int 1500000000000) ∧
      b = .text "2018-01-01T00:00:00+01:00" ∧ c = .number (.int 1600000000000) ∧
      numbers = [[("t", c)], [("t", .number (.int 7))], []] ∧
      times = [[("t", a)], [], [("t", b)], [("t", c)]] ∧
      a.order? b = some .lt ∧ b.order? c = some .lt ∧
      ¬ Torn [a.scale?, b.scale?, c.scale?] ∧ a.order? c = some .lt ∧
      MemoryStore.sortBy "t" (Direction.asc = .desc) numbers = graded size? "t" .asc numbers ∧
      MemoryStore.sortBy "t" (Direction.desc = .desc) times = graded instant? "t" .desc times := by
  have ha : (Json.number (.int 1500000000000)).scale? = some (.counted 1000) := by decide +kernel
  have hb : (Json.text "2018-01-01T00:00:00+01:00").scale? = some .clock := by decide +kernel
  have hc : (Json.number (.int 1600000000000)).scale? = some (.counted 1000) := by decide +kernel
  have hab : (Json.number (.int 1500000000000)).order? (.text "2018-01-01T00:00:00+01:00") =
      some .lt := by decide +kernel
  have hbc : (Json.text "2018-01-01T00:00:00+01:00").order? (.number (.int 1600000000000)) =
      some .lt := by decide +kernel
  have htorn : ¬ Torn [(Json.number (.int 1500000000000)).scale?,
      (Json.text "2018-01-01T00:00:00+01:00").scale?,
      (Json.number (.int 1600000000000)).scale?] := by
    rw [ha, hb, hc]
    rintro (⟨-, hletters, -⟩ | @⟨unit, number, -, hunit, hnumber, hsized, hne⟩)
    · simp at hletters
    · simp only [List.mem_cons, Option.some.injEq, Scale.counted.injEq, reduceCtorEq,
        List.not_mem_nil, or_false, false_or, or_self] at hunit hnumber
      subst hunit
      rcases hnumber with rfl | rfl | rfl
      · exact hne rfl
      · cases hsized
      · exact hne rfl
  obtain ⟨htrans, hsizes, -⟩ := order?_consistent (.number (.int 1500000000000))
    (.text "2018-01-01T00:00:00+01:00") (.number (.int 1600000000000)) "t" .asc
    [[("t", .number (.int 1600000000000))], [("t", .number (.int 7))], []]
  obtain ⟨-, -, htimes⟩ := order?_consistent .null .null .null "t" .desc
    [[("t", .number (.int 1500000000000))], [], [("t", .text "2018-01-01T00:00:00+01:00")],
      [("t", .number (.int 1600000000000))]]
  refine ⟨_, _, _, _, _, rfl, rfl, rfl, rfl, rfl, hab, hbc, htorn,
    htrans trivial trivial trivial htorn hab hbc, hsizes ?_, htimes 1000 (Nat.le_refl _) ?_⟩
  · simp only [List.forall_mem_cons, List.not_mem_nil, false_implies, implies_true, and_true]
    refine ⟨?_, ?_, ?_⟩
    · rintro value ⟨⟩
      decide +kernel
    · rintro value ⟨⟩
      decide +kernel
    · rintro value ⟨⟩
  · simp only [List.forall_mem_cons, List.not_mem_nil, false_implies, implies_true, and_true]
    refine ⟨?_, ?_, ?_, ?_⟩
    · rintro value ⟨⟩
      exact .inr ha
    · rintro value ⟨⟩
    · rintro value ⟨⟩
      exact .inl hb
    · rintro value ⟨⟩
      exact .inr hc

/-- Values that are in order one after the other, but not from end to end. -/
def Intransitive (a b c : Json) : Prop :=
  a.order? b = some .lt ∧ b.order? c = some .lt ∧ a.order? c ≠ some .lt

instance (a b c : Json) : Decidable (Intransitive a b c) := by
  unfold Intransitive
  infer_instance

/-- In each way of being torn there are values that are not in order from end to end: numbers of two
units around a text, a number that is no time below one that is and that below a text, and a text
that is no time next to two times of which one is a text. Sorting such values leads to an order that
depends on the one before. Numbers of a unit below the millisecond may be told apart where both are
at the instant of a text. -/
theorem order?_torn :
    (∀ fine ∈ storedUnits, ∀ coarse ∈ storedUnits, coarse < fine →
      Intransitive (.number (.int (1500000000 * fine))) (.text "2018-01-01T00:00:00Z")
        (.number (.int (1600000000 * coarse)))) ∧
    (∀ unit ∈ storedUnits, Intransitive (.number (.int 7)) (.number (.int (1500000000 * unit)))
      (.text "2018-01-01T00:00:00Z")) ∧
    (∀ unit ∈ storedUnits, Intransitive (.number (.int (1500000000 * unit)))
      (.text "2018-01-01T00:00:00Z") (.text "now")) ∧
    Intransitive (.text "2024-01-01T00:00:00-10:00") (.text "2024-01-01T03")
      (.text "2024-01-01T05:00:00Z") ∧
    (∃ a b c : Members, a = [("t", .number (.int 1500000000000))] ∧
      b = [("t", .text "2018-01-01T00:00:00Z")] ∧ c = [("t", .number (.int 1600000000))] ∧
      (MemoryStore.sortBy "t" false [a, b, c]).map (grade instant? "t") =
        [1500000000000000000, 1514764800000000000, 1600000000000000000] ∧
      (MemoryStore.sortBy "t" false [b, c, a]).map (grade instant? "t") =
        [1514764800000000000, 1600000000000000000, 1500000000000000000]) ∧
    (Json.number (.int 1500000000000000000)).order? (.text "2017-07-14T02:40:00Z") = some .eq ∧
    (Json.text "2017-07-14T02:40:00Z").order? (.number (.int 1500000000000512000)) = some .eq ∧
    (Json.number (.int 1500000000000000000)).order? (.number (.int 1500000000000512000)) =
      some .lt := by
  refine ⟨?_, ?_, ?_, ?_, ⟨_, _, _, rfl, rfl, rfl, ?_, ?_⟩, ?_, ?_, ?_⟩ <;> decide +kernel

end Json
end Sluice
