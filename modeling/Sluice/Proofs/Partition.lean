import Mathlib.Tactic.Ring
import Sluice.Proofs.Flooring
import Sluice.Proofs.Selection
import Sluice.Windows

/-!
The windows over a range part its documents: each document of the range lies in one window, at the
millisecond, and each window's documents lie in one bucket of the store.
-/
namespace Sluice

namespace Moment

/-- The moments that arithmetic can reach, at offsets of less than a day. -/
structure Supported (m : Moment) : Prop where
  inYears : m.inYears = true
  offset_lt : m.offset.natAbs < 24 * 60

variable {m : Moment}

theorem Supported.bounds (h : m.Supported) :
    leastNanos ≤ m.nanos + m.offset * nanosPerMinute ∧
      m.nanos + m.offset * nanosPerMinute ≤ greatestNanos := by
  have hyears := h.inYears
  simp only [Moment.inYears, Bool.and_eq_true, decide_eq_true_eq] at hyears
  exact hyears

theorem Supported.writable (h : m.Supported) (hpos : 0 ≤ m.nanos) : m.Writable := by
  have hoffset := h.offset_lt
  obtain ⟨-, hhi⟩ := h.bounds
  simp only [greatestNanos, nanosPerMinute, nanosPerSecond] at hhi
  refine ⟨?_, ?_, hoffset⟩
  · refine Calendar.le_yearOfDay_iff.mpr ?_
    simp only [Calendar.daysBeforeYear, Calendar.epochDay, localNanos, nanosPerMinute,
      nanosPerSecond, nanosPerDay]
    omega
  · refine Calendar.yearOfDay_le_iff.mpr ?_
    simp only [Calendar.daysBeforeYear, Calendar.epochDay, localNanos, nanosPerMinute,
      nanosPerSecond, nanosPerDay]
    omega

theorem Supported.fitsSigned_toMillis (h : m.Supported) : Word.FitsSigned m.toMillis := by
  have hoffset := h.offset_lt
  have hbounds := h.bounds
  have hmillis : m.toMillis.natAbs = m.nanos.natAbs / 1000000 :=
    Int.natAbs_tdiv m.nanos nanosPerMilli
  simp only [leastNanos, greatestNanos, nanosPerMinute, nanosPerSecond] at hbounds
  simp only [Word.FitsSigned, Word.signedLimit]
  omega

theorem toMillis_of_nonneg (h : 0 ≤ m.nanos) : m.toMillis = m.nanos / nanosPerMilli :=
  Int.tdiv_eq_ediv_of_nonneg h

theorem supported_of_ofMillis {millis : Int} (h : ofMillis millis = .ok m) :
    m = utc (millis * nanosPerMilli) ∧ m.Supported := by
  simp only [ofMillis] at h
  split at h
  · rename_i hyears
    cases h
    exact ⟨rfl, hyears, Nat.lt_of_lt_of_eq (Nat.zero_lt_succ 1439) rfl⟩
  · cases h

theorem fitsSigned_of_ofMillis {millis : Int} (h : ofMillis millis = .ok m) :
    Word.FitsSigned millis := by
  obtain ⟨rfl, hsupported⟩ := supported_of_ofMillis h
  have hbounds := hsupported.bounds
  simp only [utc, leastNanos, greatestNanos, nanosPerMilli, nanosPerMinute, nanosPerSecond]
    at hbounds
  simp only [Word.FitsSigned, Word.signedLimit]
  omega

theorem supported_of_later {nanos : Int} {m' : Moment} (h : m.later nanos = .ok m')
    (hoffset : m.offset.natAbs < 24 * 60) :
    m' = ⟨m.nanos + nanos, m.offset⟩ ∧ m'.Supported := by
  simp only [later, checked] at h
  split at h
  · rename_i hyears
    cases h
    exact ⟨rfl, hyears, hoffset⟩
  · cases h

end Moment

/-- A range from the epoch on, within the supported years. -/
structure TimeRange.Recent (range : TimeRange) : Prop where
  start_nonneg : 0 ≤ range.start.nanos
  start : range.start.Supported
  stop : range.stop.Supported

namespace Windows

/-! ## Clipping -/

theorem truncateMillis_later (a b : Moment) : (later a b).truncateMillis.nanos =
    max a.truncateMillis.nanos b.truncateMillis.nanos := by
  simp only [later]
  split
  · rename_i h
    have := Moment.truncateMillis_mono (Int.le_of_lt h)
    omega
  · rename_i h
    have := Moment.truncateMillis_mono (Int.not_lt.mp h)
    omega

theorem truncateMillis_earlier (a b : Moment) : (earlier a b).truncateMillis.nanos =
    min a.truncateMillis.nanos b.truncateMillis.nanos := by
  simp only [earlier]
  split
  · rename_i h
    have := Moment.truncateMillis_mono (Int.le_of_lt h)
    omega
  · rename_i h
    have := Moment.truncateMillis_mono (Int.not_lt.mp h)
    omega

/-! ## Ladders of boundaries -/

/-- Boundaries behind `boundary`, each one width above the one before, up to the first that is not
before `stop`. -/
inductive Ladder (every : Interval) (stop : Moment) : Moment → List Moment → Prop where
  | last {boundary : Moment} (hstop : stop.nanos ≤ boundary.nanos) : Ladder every stop boundary []
  | rung {boundary next : Moment} {rest : List Moment} (hstop : boundary.nanos < stop.nanos)
      (hnext : every.advance boundary = .ok next) (hup : boundary.nanos < next.nanos)
      (hrest : Ladder every stop next rest) : Ladder every stop boundary (next :: rest)

variable {every : Interval} {width : Int} {stop boundary : Moment} {rest : List Moment}
  {timeField : String} {range : TimeRange} {filter : Option Json} {documents : List Members}

theorem Ladder.of_boundariesAfter (h : boundariesAfter every stop boundary = .ok rest) :
    Ladder every stop boundary rest := by
  fun_induction boundariesAfter every stop boundary generalizing rest with
  | case1 boundary hstop cause hadvance => cases h
  | case2 boundary hstop next hadvance hup ih =>
      obtain ⟨rest', hafter, rfl⟩ := map_eq_ok.mp h
      exact .rung hstop hadvance hup (ih hafter)
  | case3 boundary hstop next hadvance hup => cases h
  | case4 boundary hstop =>
      cases h
      exact .last (Int.not_lt.mp hstop)

/-- What holds of the first boundary and goes on from each boundary to the next holds at the start
of each window. -/
theorem Ladder.window (h : Ladder (.millis width) stop boundary rest) (holds : Moment → Prop)
    (hoffset : boundary.offset.natAbs < 24 * 60) (hfirst : holds boundary)
    (hnext : ∀ m : Moment, holds m →
      (⟨m.nanos + width * Moment.nanosPerMilli, m.offset⟩ : Moment).Supported →
        holds ⟨m.nanos + width * Moment.nanosPerMilli, m.offset⟩)
    {window : Moment × Moment} (hmem : window ∈ (boundary :: rest).zip rest) :
    holds window.1 ∧
      window.2 = ⟨window.1.nanos + width * Moment.nanosPerMilli, window.1.offset⟩ ∧
        window.2.Supported := by
  induction h with
  | last => cases hmem
  | rung hstop hadvance hup hrest ih =>
      obtain ⟨rfl, hsupported⟩ := Moment.supported_of_later hadvance hoffset
      rw [List.zip_cons_cons, List.mem_cons] at hmem
      rcases hmem with rfl | hmem
      · exact ⟨hfirst, rfl, hsupported⟩
      · exact ih hoffset (hnext _ hfirst hsupported) hmem

/-! ## Parting a range -/

theorem covers_clip (window : Moment × Moment) (m : Moment) :
    (clip range window).covers m =
      (decide (max window.1.truncateMillis.nanos range.start.truncateMillis.nanos ≤
          m.truncateMillis.nanos) &&
        decide (m.truncateMillis.nanos <
          min window.2.truncateMillis.nanos range.stop.truncateMillis.nanos)) := by
  simp only [clip, TimeRange.covers, truncateMillis_later, truncateMillis_earlier]

theorem selected_clip_subset (window : Moment × Moment) :
    selected timeField (clip range window) filter documents ⊆
      selected timeField range filter documents := by
  intro document hdocument
  obtain ⟨hmem, ⟨m, hm, hcovers⟩, hfilter⟩ := mem_selected.mp hdocument
  refine mem_selected.mpr ⟨hmem, ⟨m, hm, ?_⟩, hfilter⟩
  rw [covers_clip] at hcovers
  simp only [TimeRange.covers, Bool.and_eq_true, decide_eq_true_eq] at hcovers ⊢
  omega

/-- The shift of the boundaries, in milliseconds, if they have one that is no calendar's. -/
def shift? (phase : Option Phase) (every : Interval) : Except TimeError (Option Int) :=
  match phase with
  | none => .ok (some 0)
  | some phase => phase.offsetMillis every

variable {boundaries : List Moment} {phase : Option Phase} {n : Int}

theorem boundaries_of_isEmpty {every : Option Interval} (hempty : range.isEmpty = true)
    (h : Windows.boundaries range every phase = .ok boundaries) : boundaries = [] := by
  simp only [Windows.boundaries, hempty, ↓reduceIte] at h
  cases h
  rfl

theorem boundaries_whole (hempty : range.isEmpty = false)
    (h : Windows.boundaries range none phase = .ok boundaries) :
    boundaries = [range.start, range.stop] := by
  simp only [Windows.boundaries, hempty] at h
  cases h
  rfl

/-- Boundaries are cut from the start of the bucket around the start of the range, shifted by the
phase. -/
theorem boundaries_eq (hempty : range.isEmpty = false) (every : Interval)
    (phase : Option Phase) :
    Windows.boundaries range (some every) phase =
      (match shift? phase every with
        | .ok (some offset) => .ok offset
        | .ok none => .error (.calendarPhase every)
        | .error _ => .error .outOfYears) >>= fun offset =>
      (every.floor range.start offset).mapError .floor >>= fun first =>
        boundariesAfter every range.stop first >>= fun rest => pure (first :: rest) := by
  simp only [Windows.boundaries, hempty, Bool.false_eq_true, ↓reduceIte]
  cases phase with
  | none => rfl
  | some phase =>
      simp only [shift?]
      cases phase.offsetMillis every with
      | error cause => rfl
      | ok shift => cases shift <;> rfl

theorem boundaries_of_shift (hempty : range.isEmpty = false) {offset : Int}
    (hshift : shift? phase every = .ok (some offset)) :
    Windows.boundaries range (some every) phase =
      (every.floor range.start offset).mapError .floor >>= fun first =>
        boundariesAfter every range.stop first >>= fun rest => pure (first :: rest) := by
  rw [boundaries_eq hempty, hshift]
  rfl

theorem boundaries_of_shift_none (hempty : range.isEmpty = false)
    (hshift : shift? phase every = .ok none) :
    Windows.boundaries range (some every) phase = .error (.calendarPhase every) := by
  rw [boundaries_eq hempty, hshift]
  rfl

theorem boundaries_of_shift_error (hempty : range.isEmpty = false) {cause : TimeError}
    (hshift : shift? phase every = .error cause) :
    Windows.boundaries range (some every) phase = .error .outOfYears := by
  rw [boundaries_eq hempty, hshift]
  rfl

/-- The boundaries of windows: a ladder from the start of the bucket around the start of the
range. -/
theorem boundaries_ladder (hempty : range.isEmpty = false)
    (h : Windows.boundaries range (some every) phase = .ok boundaries) :
    ∃ offset first rest, shift? phase every = .ok (some offset) ∧
      every.floor range.start offset = .ok first ∧ boundaries = first :: rest ∧
      Ladder every range.stop first rest := by
  rw [boundaries_eq hempty] at h
  obtain ⟨offset, hoffset, h⟩ := bind_eq_ok.mp h
  obtain ⟨first, hfirst, h⟩ := bind_eq_ok.mp h
  obtain ⟨rest, hrest, h⟩ := bind_eq_ok.mp h
  have hshift : shift? phase every = .ok (some offset) := by
    split at hoffset
    · rename_i hshift
      cases hoffset
      exact hshift
    · cases hoffset
    · cases hoffset
  cases h
  exact ⟨offset, first, rest, hshift, mapError_eq_ok.mp hfirst, rfl, .of_boundariesAfter hrest⟩

theorem floor_millis {m first : Moment} {offset : Int}
    (h : (Interval.millis n).floor m offset = .ok first) :
    ∃ start, Moment.floorMillis? m.toMillis n offset = some start ∧
      Moment.ofMillis start = .ok first := by
  simp only [Interval.floor] at h
  split at h
  · cases h
  · split at h
    · cases h
    · rename_i start hstart
      exact ⟨start, hstart, mapError_eq_ok.mp h⟩

/-- With a fixed width the ladder starts within the width before the range. -/
theorem boundaries_millis (hrange : range.Recent) (hempty : range.isEmpty = false) (hn : 0 < n)
    (hword : Word.FitsSigned n)
    (h : Windows.boundaries range (some (.millis n)) phase = .ok boundaries) :
    ∃ offset start rest, shift? phase (.millis n) = .ok (some offset) ∧
      boundaries = .utc (start * Moment.nanosPerMilli) :: rest ∧
      (Moment.utc (start * Moment.nanosPerMilli)).Supported ∧
      Ladder (.millis n) range.stop (.utc (start * Moment.nanosPerMilli)) rest ∧
      Moment.floorMillis? range.start.toMillis n offset = some start ∧
      start ≤ range.start.toMillis ∧ range.start.toMillis < start + n := by
  obtain ⟨offset, first, rest, hshift, hfirst, rfl, hladder⟩ := boundaries_ladder hempty h
  obtain ⟨start, hfloor, hmoment⟩ := floor_millis hfirst
  have hmillis : 0 ≤ range.start.toMillis := Int.tdiv_nonneg hrange.start_nonneg (by decide)
  obtain ⟨start', hfloor', hle, hlt⟩ := @Moment.floorMillis?_eq_some range.start.toMillis n offset
    hmillis hrange.start.fitsSigned_toMillis hn hword
  obtain rfl : start = start' := by
    rw [hfloor] at hfloor'
    exact Option.some.inj hfloor'
  obtain ⟨rfl, hsupported⟩ := Moment.supported_of_ofMillis hmoment
  exact ⟨offset, start, rest, hshift, rfl, hsupported, hladder, hfloor, hle, hlt⟩

/-- A moment whole widths of milliseconds behind a start. -/
def Stepped (start n : Int) (m : Moment) : Prop :=
  (∃ steps : Nat, m = .utc ((start + steps * n) * Moment.nanosPerMilli)) ∧ m.Supported

theorem Stepped.next {start : Int} {m : Moment} (h : Stepped start n m)
    (hsupported : (⟨m.nanos + n * Moment.nanosPerMilli, m.offset⟩ : Moment).Supported) :
    Stepped start n ⟨m.nanos + n * Moment.nanosPerMilli, m.offset⟩ := by
  obtain ⟨⟨steps, rfl⟩, -⟩ := h
  refine ⟨⟨steps + 1, ?_⟩, hsupported⟩
  simp only [Moment.utc, Moment.mk.injEq, and_true, Int.natCast_add, Int.natCast_one]
  ring

/-- Each window of a fixed width lies whole widths behind the start of the first. -/
theorem mem_windows_millis (hrange : range.Recent) (hempty : range.isEmpty = false) (hn : 0 < n)
    (hword : Word.FitsSigned n)
    (h : Windows.boundaries range (some (.millis n)) phase = .ok boundaries) :
    ∃ offset start, shift? phase (.millis n) = .ok (some offset) ∧
      Moment.floorMillis? range.start.toMillis n offset = some start ∧
      range.start.toMillis < start + n ∧
      ∀ window ∈ boundaries.zip boundaries.tail, ∃ steps : Nat,
        window.1 = .utc ((start + steps * n) * Moment.nanosPerMilli) ∧ window.1.Supported ∧
          window.2 = .utc ((start + steps * n + n) * Moment.nanosPerMilli) ∧
            window.2.Supported := by
  obtain ⟨offset, start, rest, hshift, rfl, hfirst, hladder, hfloor, -, hlt⟩ :=
    boundaries_millis hrange hempty hn hword h
  refine ⟨offset, start, hshift, hfloor, hlt, fun window hmem => ?_⟩
  obtain ⟨⟨⟨steps, hsteps⟩, hlow⟩, hhigh, hsupported⟩ :=
    hladder.window (Stepped start n) hfirst.offset_lt ⟨⟨0, by simp⟩, hfirst⟩
      (fun _ => Stepped.next) hmem
  refine ⟨steps, hsteps, hlow, ?_, hsupported⟩
  rw [hhigh, hsteps]
  simp only [Moment.utc, Moment.mk.injEq, and_true]
  ring

theorem clip_whole : clip range (range.start, range.stop) = range := by
  simp [clip, later, earlier]

end Windows

/-- A width of milliseconds that is a word. -/
def Interval.Fixed (every : Interval) : Prop :=
  ∃ n, every = .millis n ∧ 0 < n ∧ Word.FitsSigned n

namespace Windows

variable {boundaries : List Moment} {phase : Option Phase} {every : Option Interval} {n : Int}
  {range : TimeRange} {timeField : String} {filter : Option Json} {documents : List Members}

theorem writable_clip (hrange : range.Recent) (hevery : ∀ width ∈ every, width.Fixed)
    (h : Windows.boundaries range every phase = .ok boundaries) {window : Moment × Moment}
    (hmem : window ∈ boundaries.zip boundaries.tail) : (clip range window).Writable := by
  cases hempty : range.isEmpty with
  | true =>
      rw [boundaries_of_isEmpty hempty h] at hmem
      cases hmem
  | false =>
      have hstop : range.start.nanos < range.stop.nanos := by
        simpa [TimeRange.isEmpty] using hempty
      have hstart := hrange.start_nonneg
      have hfrom := hrange.start.writable hstart
      have hto := hrange.stop.writable (by omega)
      cases every with
      | none =>
          rw [boundaries_whole hempty h] at hmem
          obtain rfl : window = (range.start, range.stop) := by simpa using hmem
          rw [clip_whole]
          exact ⟨hfrom, hto⟩
      | some width =>
          obtain ⟨n, rfl, hn, hword⟩ := hevery width rfl
          obtain ⟨offset, start, -, -, hlt, hwindows⟩ :=
            mem_windows_millis hrange hempty hn hword h
          obtain ⟨steps, hlow, hlowSupported, hhigh, hhighSupported⟩ := hwindows window hmem
          refine ⟨?_, ?_⟩
          · simp only [clip, later]
            split
            · exact hlowSupported.writable (by omega)
            · exact hfrom
          · simp only [clip, earlier]
            split
            · exact hto
            · refine hhighSupported.writable ?_
              have hsteps : 0 ≤ (steps : Int) * n :=
                Int.mul_nonneg (Int.natCast_nonneg steps) (Int.le_of_lt hn)
              have hmillis : 0 ≤ range.start.toMillis := Int.tdiv_nonneg hstart (by decide)
              rw [hhigh]
              exact Int.mul_nonneg (by omega) (by decide)

/-- The store puts all times of a window into the bucket that starts with it. -/
theorem floorMillis?_of_covers (hrange : range.Recent) (hn : 0 < n) (hword : Word.FitsSigned n)
    (h : Windows.boundaries range (some (.millis n)) phase = .ok boundaries) {offset : Int}
    (hshift : shift? phase (.millis n) = .ok (some offset)) (hoffset : 0 ≤ offset)
    (hfits : Word.FitsSigned offset) {window : Moment × Moment}
    (hmem : window ∈ boundaries.zip boundaries.tail) :
    ∃ start, Moment.ofMillis start = .ok window.1 ∧ ∀ m, (clip range window).covers m = true →
      Moment.floorMillis? m.toMillis n offset = some start := by
  cases hempty : range.isEmpty with
  | true =>
      rw [boundaries_of_isEmpty hempty h] at hmem
      cases hmem
  | false =>
      obtain ⟨offset', first, hshift', hfloor, hlt, hwindows⟩ :=
        mem_windows_millis hrange hempty hn hword h
      obtain ⟨steps, hlow, hlowSupported, hhigh, -⟩ := hwindows window hmem
      obtain rfl : offset = offset' := by
        rw [hshift, Except.ok.injEq, Option.some.injEq] at hshift'
        exact hshift'
      have hstart := hrange.start_nonneg
      have hmillis : 0 ≤ range.start.toMillis := Int.tdiv_nonneg hstart (by decide)
      have hbelow := Int.ediv_mul_le (range.start.toMillis - offset) (Int.ne_of_gt hn)
      have habove := Int.lt_ediv_add_one_mul_self (range.start.toMillis - offset) hn
      rw [Int.add_mul, Int.one_mul] at habove
      have haligned := Moment.floorMillis?_of_aligned hmillis hrange.start.fitsSigned_toMillis
        hoffset hfits hword ((range.start.toMillis - offset) / n) (by omega) (by omega)
      rw [hfloor, Option.some.injEq] at haligned
      refine ⟨first + steps * n, ?_, fun m hm => ?_⟩
      · rw [hlow] at hlowSupported ⊢
        exact if_pos hlowSupported.inYears
      · rw [covers_clip, hlow, hhigh] at hm
        simp only [Bool.and_eq_true, decide_eq_true_eq, Moment.truncateMillis_nanos,
          Moment.utc, Moment.nanosPerMilli] at hm
        have hpos : 0 ≤ m.nanos := by omega
        have hmMillis := Moment.toMillis_of_nonneg hpos
        have hstop : 0 ≤ range.stop.nanos := by omega
        have hstopMillis := Moment.toMillis_of_nonneg hstop
        have hstopFits := hrange.stop.fitsSigned_toMillis
        simp only [Moment.nanosPerMilli] at hmMillis hstopMillis
        have hmFits : Word.FitsSigned m.toMillis := by
          have hhi := hstopFits.2
          exact ⟨by omega, by omega⟩
        have hsteps : offset + ((range.start.toMillis - offset) / n + steps) * n =
            first + steps * n := by
          rw [haligned]
          ring
        rw [← hsteps]
        exact Moment.floorMillis?_of_aligned (by omega) hmFits hoffset hfits hword _
          (by rw [hsteps]; omega) (by rw [hsteps]; omega)

end Windows
end Sluice
