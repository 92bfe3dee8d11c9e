import Sluice.Proofs.Boundaries
import Sluice.Proofs.Levels
import Sluice.Proofs.Plans

/-!
Windows that leave the supported years. A width without a length, one that does not advance and a
bucket that starts too early are reported with a text; what ends the program instead is arithmetic
on times. For a fixed width that is the step to a boundary past the last supported year, for months
it is the shift to the phase and back, while months themselves always lead on.
-/
namespace Sluice

/-! ## Errors without a text -/

def OpenError.message? : OpenError → Option String
  | .filter cause => some cause.message
  | .windows cause => cause.message?

def PlanError.message? : PlanError → Option String
  | .opening cause => cause.message?
  | .time cause => cause.message?

namespace Windows

/-- Whether windows cannot be had, and no text says why: the program ends. -/
def Silent {α : Type} (result : Except WindowError α) : Prop :=
  ∃ e, result = .error e ∧ e.message? = none

variable {α β : Type} {range : TimeRange} {every : Interval} {phase : Option Phase}
  {stop boundary m : Moment} {n offset : Int} {count : Nat}

theorem not_silent_ok {a : α} : ¬Silent (.ok a) := nofun

theorem not_silent_error {e : WindowError} {text : String} (h : e.message? = some text) :
    ¬Silent (.error e : Except WindowError α) := by
  rintro ⟨e', he, hnone⟩
  cases he
  rw [h] at hnone
  cases hnone

theorem silent_map {result : Except WindowError α} {f : α → β} :
    Silent (result.map f) ↔ Silent result := by
  cases result with
  | ok a => exact iff_of_false not_silent_ok not_silent_ok
  | error e =>
      constructor
      · rintro ⟨e', he, hnone⟩
        cases he
        exact ⟨e, rfl, hnone⟩
      · rintro ⟨e', he, hnone⟩
        cases he
        exact ⟨e, rfl, hnone⟩

/-! ## Going on -/

/-- Of the times that follow `first` by widths, one before the stop is followed by one past the
supported years. -/
def Outruns (width : Int) (stop first : Moment) : Prop :=
  ∃ steps : Nat, first.nanos + steps * width < stop.nanos ∧
    Moment.greatestNanos < first.nanos + (steps + 1) * width

theorem outruns_next {width : Int} {next : Moment} (hnext : next.nanos = boundary.nanos + width)
    (hyears : next.nanos ≤ Moment.greatestNanos) :
    Outruns width stop boundary ↔ Outruns width stop next := by
  constructor
  · rintro ⟨steps, hbefore, hover⟩
    cases steps with
    | zero =>
        rw [Int.natCast_zero, Int.zero_add, Int.one_mul] at hover
        omega
    | succ steps =>
        refine ⟨steps, ?_, ?_⟩
        · rw [Int.natCast_succ, Int.add_mul, Int.one_mul] at hbefore
          omega
        · rw [Int.natCast_succ, Int.add_mul _ 1, Int.one_mul] at hover
          omega
  · rintro ⟨steps, hbefore, hover⟩
    refine ⟨steps + 1, ?_, ?_⟩
    · rw [Int.natCast_succ, Int.add_mul, Int.one_mul]
      omega
    · rw [Int.natCast_succ, Int.add_mul _ 1, Int.one_mul]
      omega

/-- Boundaries a fixed width apart end the program only past the last supported year. -/
theorem silent_boundariesAfter_millis (hn : 0 < n) (hutc : boundary.offset = 0)
    (hyears : boundary.inYears = true) :
    Silent (boundariesAfter (.millis n) stop boundary) ↔
      Outruns (n * Moment.nanosPerMilli) stop boundary := by
  have hwidth : 0 < n * Moment.nanosPerMilli := Int.mul_pos hn (by decide)
  fun_induction boundariesAfter (.millis n) stop boundary with
  | case1 boundary hstop cause hadvance =>
      refine ⟨fun _ => ⟨0, ?_, ?_⟩, fun _ => ⟨_, rfl, rfl⟩⟩
      · rw [Int.natCast_zero, Int.zero_mul]
        omega
      · refine Int.not_le.mp fun hle => ?_
        have hleast := (Moment.bounds_of_inYears hyears hutc).1
        rw [Int.natCast_zero, Int.zero_add, Int.one_mul] at hle
        have hnext : (⟨boundary.nanos + n * Moment.nanosPerMilli, boundary.offset⟩ :
            Moment).inYears = true :=
          Moment.inYears_of_utc hutc (by dsimp only; omega) hle
        rw [Interval.advance, Moment.later, Moment.checked, if_pos hnext] at hadvance
        cases hadvance
  | case2 boundary hstop next hadvance hup ih =>
      obtain ⟨hnext, rfl⟩ := Moment.checked_eq_ok.mp hadvance
      obtain ⟨-, hgreatest⟩ := Moment.bounds_of_inYears hnext hutc
      exact silent_map.trans ((ih hutc hnext).trans (outruns_next rfl hgreatest).symm)
  | case3 boundary hstop next hadvance hup =>
      obtain ⟨-, rfl⟩ := Moment.checked_eq_ok.mp hadvance
      dsimp only at hup
      omega
  | case4 boundary hstop =>
      refine ⟨fun h => absurd h not_silent_ok, ?_⟩
      rintro ⟨steps, hbefore, -⟩
      have hsteps : 0 ≤ (steps : Int) * (n * Moment.nanosPerMilli) :=
        Int.mul_nonneg (Int.natCast_nonneg steps) (Int.le_of_lt hwidth)
      omega

/-- Boundaries of months never end the program, wherever in its month the first of them is. -/
theorem not_silent_boundariesAfter_months (hutc : boundary.offset = 0)
    (hyears : boundary.inYears = true) :
    ¬Silent (boundariesAfter (.months count) stop boundary) := by
  fun_induction boundariesAfter (.months count) stop boundary with
  | case1 boundary hstop cause hadvance =>
      obtain ⟨next, hnext, -⟩ := Moment.exists_addMonths hutc hyears count
      rw [Interval.advance, hnext] at hadvance
      cases hadvance
  | case2 boundary hstop next hadvance hup ih =>
      obtain ⟨next', hnext, hutc', hyears'⟩ := Moment.exists_addMonths hutc hyears count
      rw [Interval.advance, hnext] at hadvance
      cases hadvance
      rw [silent_map]
      exact ih hutc' hyears'
  | case3 => exact not_silent_error rfl
  | case4 => exact not_silent_ok

/-! ## Starting -/

/-- A bucket of a fixed width that cannot be had is reported with a text. -/
theorem exists_floorMessage? {cause : Interval.FloorError}
    (h : (Interval.millis n).floor m offset = .error cause) :
    ∃ text, (WindowError.floor cause).message? = some text := by
  simp only [Interval.floor] at h
  split at h
  · cases h
    exact ⟨_, rfl⟩
  · cases hfloor : Moment.floorMillis? m.toMillis n offset with
    | none =>
        simp only [hfloor] at h
        cases h
        exact ⟨_, rfl⟩
    | some start =>
        simp only [hfloor, Moment.ofMillis] at h
        split at h
        · cases h
        · cases h
          exact ⟨_, rfl⟩

theorem eq_outOfYears_of_floor_months (hcount : 0 < count) {cause : Interval.FloorError}
    (h : (Interval.months count).floor m offset = .error cause) : cause = .time .outOfYears := by
  have hsome : ¬(Interval.months count).isEmpty = true := by
    simp only [Interval.isEmpty, decide_eq_true_eq]
    omega
  simp only [Interval.floor, if_neg hsome] at h
  rcases bind_eq_error.mp h with h | ⟨shifted, -, h⟩
  · obtain ⟨e, he, rfl⟩ := mapError_eq_error.mp h
    rw [Moment.checked_eq_error he]
  · rcases bind_eq_error.mp h with h | ⟨start, -, h⟩
    · obtain ⟨e, he, rfl⟩ := mapError_eq_error.mp h
      rcases bind_eq_error.mp he with hutc | ⟨there, -, hperiod⟩
      · rw [Moment.checked_eq_error hutc]
      · dsimp only at hperiod
        rw [if_neg (Nat.ne_of_gt hcount)] at hperiod
        cases hperiod
    · obtain ⟨e, he, rfl⟩ := mapError_eq_error.mp h
      rw [Moment.checked_eq_error he]

theorem floor_months_eq_error (hcount : 0 < count) {cause : Interval.FloorError} :
    (Interval.months count).floor m offset = .error cause ↔
      ¬m.MonthsFit count (offset * Moment.nanosPerMilli) ∧ cause = .time .outOfYears := by
  constructor
  · intro h
    refine ⟨fun hfits => ?_, eq_outOfYears_of_floor_months hcount h⟩
    rw [Interval.floor_months_eq_ok.mpr ⟨hcount, hfits, rfl⟩] at h
    cases h
  · rintro ⟨hfits, rfl⟩
    cases hfloor : (Interval.months count).floor m offset with
    | ok first => exact absurd (Interval.floor_months_eq_ok.mp hfloor).2.1 hfits
    | error cause => rw [eq_outOfYears_of_floor_months hcount hfloor]

theorem floor_of_isEmpty (h : every.isEmpty = true) :
    every.floor m offset = .error (.noWidth every) := by
  simp only [Interval.floor, if_pos h]

/-! ## Boundaries over a range -/

theorem boundaries_of_floor_error (hempty : range.isEmpty = false)
    (hshift : shift? phase every = .ok (some offset)) {cause : Interval.FloorError}
    (hfloor : every.floor range.start offset = .error cause) :
    Windows.boundaries range (some every) phase = .error (.floor cause) := by
  rw [boundaries_of_shift hempty hshift, hfloor]
  rfl

/-- Behind the first boundary only going on can end the program. -/
theorem silent_boundaries_of_floor (hempty : range.isEmpty = false)
    (hshift : shift? phase every = .ok (some offset)) {first : Moment}
    (hfloor : every.floor range.start offset = .ok first) :
    Silent (Windows.boundaries range (some every) phase) ↔
      Silent (boundariesAfter every range.stop first) := by
  rw [boundaries_of_shift hempty hshift, hfloor, Except.mapError, ok_bind, bind_pure_eq_map]
  exact silent_map

/-- A width over a range, and its phase, that leave the supported years. For a fixed width it is the
step behind a boundary, for months it is the phase's moment or the start of the range, shifted. -/
def Overruns (range : TimeRange) (phase : Option Phase) : Interval → Prop
  | .millis n => 0 < n ∧ ∃ offset first, shift? phase (.millis n) = .ok (some offset) ∧
      (Interval.millis n).floor range.start offset = .ok first ∧
      Outruns (n * Moment.nanosPerMilli) range.stop first
  | .months count => 0 < count ∧ ((∃ m, phase = some (.moment m) ∧ ¬m.MonthsFit count 0) ∨
      ∃ offset, shift? phase (.months count) = .ok (some offset) ∧
        ¬range.start.MonthsFit count (offset * Moment.nanosPerMilli))

theorem boundaries_of_isEmpty_width (hempty : range.isEmpty = false)
    (hwidth : every.isEmpty = true) (phase : Option Phase) :
    ∃ e text, Windows.boundaries range (some every) phase = .error e ∧
      e.message? = some text := by
  cases hshift : shift? phase every with
  | error cause =>
      match phase with
      | none => cases hshift
      | some (.offset shift) => cases hshift
      | some (.moment m) =>
          simp only [shift?, Phase.offsetMillis, floor_of_isEmpty hwidth] at hshift
          cases hshift
  | ok shift =>
      cases shift with
      | none => exact ⟨_, _, boundaries_of_shift_none hempty hshift, rfl⟩
      | some offset =>
          exact ⟨_, _, boundaries_of_floor_error hempty hshift (floor_of_isEmpty hwidth), rfl⟩

theorem silent_boundaries_millis (hempty : range.isEmpty = false) (hn : 0 < n) :
    Silent (Windows.boundaries range (some (.millis n)) phase) ↔
      Overruns range phase (.millis n) := by
  obtain ⟨shift, hshift⟩ : ∃ shift, shift? phase (.millis n) = .ok shift := by
    cases phase with
    | none => exact ⟨_, rfl⟩
    | some phase => exact Plan.offsetMillis_millis phase n
  cases shift with
  | none =>
      rw [boundaries_of_shift_none hempty hshift]
      refine ⟨fun h => absurd h (not_silent_error rfl), ?_⟩
      rintro ⟨-, offset, first, hsome, -⟩
      cases hshift.symm.trans hsome
  | some offset =>
  cases hfloor : (Interval.millis n).floor range.start offset with
  | error cause =>
      obtain ⟨text, htext⟩ := exists_floorMessage? hfloor
      rw [boundaries_of_floor_error hempty hshift hfloor]
      refine ⟨fun h => absurd h (not_silent_error htext), ?_⟩
      rintro ⟨-, offset', first, hsome, hfirst, -⟩
      cases hshift.symm.trans hsome
      cases hfloor.symm.trans hfirst
  | ok first =>
      obtain ⟨start, -, hstart⟩ := floor_millis hfloor
      obtain ⟨rfl, hsupported⟩ := Moment.supported_of_ofMillis hstart
      refine (silent_boundaries_of_floor hempty hshift hfloor).trans
        ((silent_boundariesAfter_millis hn rfl hsupported.inYears).trans ⟨fun h => ?_, ?_⟩)
      · exact ⟨hn, offset, _, hshift, hfloor, h⟩
      · rintro ⟨-, offset', first, hsome, hfirst, h⟩
        cases hshift.symm.trans hsome
        cases hfloor.symm.trans hfirst
        exact h

/-- A phase of months cannot be had where flooring its moment leaves the supported years. -/
theorem shift?_months_eq_error (hcount : 0 < count) :
    (∃ cause, shift? phase (.months count) = .error cause) ↔
      ∃ m, phase = some (.moment m) ∧ ¬m.MonthsFit count 0 := by
  match phase with
  | none | some (.offset shift) =>
      constructor
      · rintro ⟨cause, h⟩
        cases h
      · rintro ⟨m, h, -⟩
        cases h
  | some (.moment m) =>
      have hzero : 0 * Moment.nanosPerMilli = 0 := Int.zero_mul _
      simp only [shift?, Phase.offsetMillis, Option.some.injEq, Phase.moment.injEq, exists_eq_left']
      cases hfloor : (Interval.months count).floor m 0 with
      | ok first =>
          have hfits := (Interval.floor_months_eq_ok.mp hfloor).2.1
          rw [hzero] at hfits
          refine ⟨?_, absurd hfits⟩
          rintro ⟨cause, h⟩
          cases h
      | error cause =>
          obtain ⟨hfits, rfl⟩ := (floor_months_eq_error hcount).mp hfloor
          rw [hzero] at hfits
          exact ⟨fun _ => hfits, fun _ => ⟨_, rfl⟩⟩

theorem silent_boundaries_months (hempty : range.isEmpty = false) (hcount : 0 < count) :
    Silent (Windows.boundaries range (some (.months count)) phase) ↔
      Overruns range phase (.months count) := by
  rw [Overruns, ← shift?_months_eq_error hcount]
  cases hshift : shift? phase (.months count) with
  | error cause =>
      rw [boundaries_of_shift_error hempty hshift]
      exact ⟨fun _ => ⟨hcount, .inl ⟨cause, rfl⟩⟩, fun _ => ⟨_, rfl, rfl⟩⟩
  | ok shift =>
  cases shift with
  | none =>
      rw [boundaries_of_shift_none hempty hshift]
      refine ⟨fun h => absurd h (not_silent_error rfl), ?_⟩
      rintro ⟨-, ⟨_, h⟩ | ⟨_, h, -⟩⟩ <;> cases h
  | some offset =>
  cases hfloor : (Interval.months count).floor range.start offset with
  | error cause =>
      obtain ⟨hfits, rfl⟩ := (floor_months_eq_error hcount).mp hfloor
      rw [boundaries_of_floor_error hempty hshift hfloor]
      exact ⟨fun _ => ⟨hcount, .inr ⟨offset, rfl, hfits⟩⟩, fun _ => ⟨_, rfl, rfl⟩⟩
  | ok first =>
      obtain ⟨-, hfits, rfl⟩ := Interval.floor_months_eq_ok.mp hfloor
      refine (silent_boundaries_of_floor hempty hshift hfloor).trans
        ⟨fun h => absurd h (not_silent_boundariesAfter_months rfl hfits.start), ?_⟩
      rintro ⟨-, ⟨_, h⟩ | ⟨_, h, hover⟩⟩
      · cases h
      · cases h
        exact absurd hfits hover

theorem Overruns.isEmpty (h : Overruns range phase every) : every.isEmpty = false := by
  cases every with
  | millis n => simp [Interval.isEmpty, h.1]
  | months count => simp [Interval.isEmpty, Nat.ne_of_gt h.1]

/-- Windows cannot be had without a text exactly where their width leaves the supported years. -/
theorem silent_boundaries {width : Option Interval} :
    Silent (Windows.boundaries range width phase) ↔
      range.isEmpty = false ∧ ∃ every ∈ width, Overruns range phase every := by
  cases hempty : range.isEmpty with
  | true =>
      simp only [Windows.boundaries, hempty, ↓reduceIte]
      refine ⟨fun h => absurd h not_silent_ok, ?_⟩
      rintro ⟨h, -⟩
      cases h
  | false =>
  cases width with
  | none =>
      simp only [Windows.boundaries, hempty, Bool.false_eq_true, ↓reduceIte]
      refine ⟨fun h => absurd h not_silent_ok, ?_⟩
      rintro ⟨-, every, h, -⟩
      cases h
  | some every =>
  simp only [Option.mem_some_iff, exists_eq_left', true_and]
  cases hwidth : every.isEmpty with
  | true =>
      obtain ⟨e, text, herror, htext⟩ := boundaries_of_isEmpty_width hempty hwidth phase
      rw [herror]
      refine ⟨fun h => absurd h (not_silent_error htext), fun h => ?_⟩
      cases hwidth.symm.trans h.isEmpty
  | false =>
  cases every with
  | millis n =>
      refine silent_boundaries_millis hempty (Int.not_le.mp fun hn => ?_)
      simp [Interval.isEmpty, hn] at hwidth
  | months count =>
      refine silent_boundaries_months hempty (Nat.pos_of_ne_zero fun hcount => ?_)
      simp [Interval.isEmpty, hcount] at hwidth

end Windows

/-! ## Planning -/

open Windows

variable {config : Config} {range : TimeRange} {plan : Plan} {steps : List Step}

theorem Reading.exists_start?
    (hclauses : ∀ predicate ∈ plan.filter, ∃ clause, predicate.clause none = .ok clause) :
    ∃ filter, start? config (plan.request range) =
      match plan.pushdown with
      | .none => .ok (.forward (.start config.indices range config.pageOptions filter .asc none))
      | .head limit =>
        .ok (.forward (.start config.indices range config.pageOptions filter .asc (some limit)))
      | .tail limit =>
        .ok (.backward (.start config.indices range config.pageOptions filter .desc (some limit)))
      | .reduce d => ((Aggregator.start? config.indices range d config.windowOptions
          filter).mapError .windows).map .windowed := by
  cases hfilter : plan.filter with
  | none =>
      refine ⟨none, ?_⟩
      simp only [start?, Plan.request, hfilter]
      cases plan.pushdown <;> rfl
  | some predicate =>
      obtain ⟨clause, hclause⟩ := hclauses predicate hfilter
      refine ⟨some clause, ?_⟩
      simp only [start?, Plan.request, hfilter, hclause]
      cases plan.pushdown <;> rfl

/-- A read whose filter compiles fails to start only for its windows. -/
theorem Reading.start?_eq_error
    (hclauses : ∀ predicate ∈ plan.filter, ∃ clause, predicate.clause none = .ok clause)
    {cause : OpenError} :
    start? config (plan.request range) = .error cause ↔ ∃ d e, plan.pushdown = .reduce d ∧
      Windows.boundaries range d.every d.phase = .error e ∧ cause = .windows e := by
  obtain ⟨filter, hstart⟩ := @exists_start? config range plan hclauses
  rw [hstart]
  cases plan.pushdown with
  | none | head limit | tail limit =>
      refine ⟨nofun, ?_⟩
      rintro ⟨d, e, h, -⟩
      cases h
  | reduce d =>
      simp only [Aggregator.start?]
      cases hboundaries : Windows.boundaries range d.every d.phase with
      | error e =>
          constructor
          · intro h
            cases h
            exact ⟨d, e, rfl, hboundaries, rfl⟩
          · rintro ⟨d', e', hd, he, rfl⟩
            cases hd
            cases hboundaries.symm.trans he
            rfl
      | ok boundaries =>
          refine ⟨nofun, ?_⟩
          rintro ⟨d', e, hd, he, -⟩
          cases hd
          cases hboundaries.symm.trans he

/-- A pushed reduction has windows of a fixed width, if any. -/
theorem Plan.Absorbed.every_eq {options : Plan.Options} {d : Descriptor} {every : Interval}
    (h : Absorbed options steps plan) (hd : plan.pushdown = .reduce d)
    (hevery : d.every = some every) : ∃ n, every = .millis n := by
  obtain ⟨r, -, hplan⟩ := h.getLast?_reduce hd
  obtain ⟨⟨⟨leaf, hleaf, -⟩, -⟩, -⟩ := Plan.descriptor?_levels hplan
  rw [hevery] at hleaf
  cases hleaf
  exact ⟨_, rfl⟩

/-- Planning fails without a text exactly where the pushed reduction has windows of a fixed width
that leave the supported years. -/
theorem planRead_silent :
    (∃ e, planRead config range steps = .error e ∧ e.message? = none) ↔
      range.isEmpty = false ∧ ∃ plan remaining d n,
        Plan.ofSteps (Plan.optionsOf config) steps = .ok (plan, remaining) ∧
        plan.pushdown = .reduce d ∧ d.every = some (.millis n) ∧
        Overruns range d.phase (.millis n) := by
  obtain ⟨plan, absorbed, remaining, hplan, -, habsorbed, -⟩ :=
    Plan.absorb_absorbed (@Plan.Absorbed.filters (Plan.optionsOf config) _ .nil) steps
  replace hplan : Plan.ofSteps (Plan.optionsOf config) steps = .ok (plan, remaining) := hplan
  have hread : planRead config range steps =
      ((Reading.start? config (plan.request range)).mapError PlanError.opening).map
        fun reading => ⟨reading, remaining⟩ := by
    rw [planRead, hplan, ← bind_pure_eq_map]
    rfl
  rw [hread]
  have hstart := @Reading.start?_eq_error config range plan habsorbed.clause
  constructor
  · rintro ⟨e, he, hnone⟩
    cases hreading : Reading.start? config (plan.request range) with
    | ok reading =>
        rw [hreading] at he
        cases he
    | error cause =>
        rw [hreading] at he
        cases he
        obtain ⟨d, e, hd, he, rfl⟩ := hstart.mp hreading
        obtain ⟨hempty, every, hevery, hover⟩ := silent_boundaries.mp ⟨e, he, hnone⟩
        obtain ⟨n, rfl⟩ := habsorbed.every_eq hd hevery
        exact ⟨hempty, plan, remaining, d, n, hplan, hd, hevery, hover⟩
  · rintro ⟨hempty, plan', remaining', d, n, hsteps, hd, hevery, hover⟩
    cases hplan.symm.trans hsteps
    obtain ⟨e, he, hnone⟩ := silent_boundaries.mpr ⟨hempty, _, hevery, hover⟩
    rw [hstart.mpr ⟨d, e, hd, he, rfl⟩]
    exact ⟨_, rfl, hnone⟩

/-- What windows that leave the supported years come to. Cutting a range ends the program exactly for
widths that overrun it, an empty width is always reported with a text, and planning a pipeline ends
the program exactly where its pushed reduction has a fixed width that overruns the range. -/
theorem planRead_overruns (range : TimeRange) (width : Option Interval) (phase : Option Phase)
    (config : Config) (steps : List Step) :
    ((∃ e, Windows.boundaries range width phase = .error e ∧ e.message? = none) ↔
      range.isEmpty = false ∧ ∃ every ∈ width, Overruns range phase every) ∧
    (∀ every ∈ width, range.isEmpty = false → every.isEmpty = true →
      ∃ e text, Windows.boundaries range width phase = .error e ∧ e.message? = some text) ∧
    ((∃ e, planRead config range steps = .error e ∧ e.message? = none) ↔
      range.isEmpty = false ∧ ∃ plan remaining d n,
        Plan.ofSteps (Plan.optionsOf config) steps = .ok (plan, remaining) ∧
        plan.pushdown = .reduce d ∧ d.every = some (.millis n) ∧
        Overruns range d.phase (.millis n)) := by
  refine ⟨silent_boundaries, fun every hevery hempty hwidth => ?_, planRead_silent⟩
  rw [Option.mem_def.mp hevery]
  exact boundaries_of_isEmpty_width hempty hwidth phase

/-- A count in windows of a width that a text gives: it is taken over, and then it ends the
program. -/
theorem planRead_overruns_wide :
    let config : Config := { Config.ofUrl "http://localhost:9200" with indices := ["logs"] }
    let day : TimeRange := ⟨.utc 0, .utc 86400000000000⟩
    let count : Reduce :=
      ⟨[⟨.field "n", "count", []⟩], [], some (.millis 864000000000000), none, none⟩
    Interval.parse "10000000d" = .ok (.millis 864000000000000) ∧
      (∃ plan d, Plan.ofSteps (Plan.optionsOf config) [.reduce count] = .ok (plan, []) ∧
        plan.pushdown = .reduce d) ∧
      ∃ e, planRead config day [.reduce count] = .error e ∧ e.message? = none := by
  intro config day count
  let d : Descriptor := ⟨Tree.millisLevel "@timestamp" 864000000000000 0, some "n",
    [("n", .nat 0)], [], count.every, none, []⟩
  have hplan : Plan.ofSteps (Plan.optionsOf config) [.reduce count] =
      .ok (⟨none, .reduce d⟩, []) := by cbv
  have hread : planRead config day [.reduce count] =
      .error (.opening (.windows .outOfYears)) := by cbv
  exact ⟨rfl, ⟨_, d, hplan, rfl⟩, _, hread, rfl⟩

end Sluice
