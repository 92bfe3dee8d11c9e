import Sluice.Proofs.Boundaries

/-!
Phased windows of months. Their boundaries are the starts of their own periods, and ranges that
overlap have their boundaries in common, as long as the phase leads to one place in a month.
-/
namespace Sluice.Windows

open Moment

variable {count : Nat} {shift months months' offset : Int} {b b' stop : Moment} {rest : List Moment}
  {phase : Option Phase} {range other : TimeRange} {boundaries others : List Moment}

/-- Boundaries behind a shifted start leave out no shifted start up to the last of them. -/
theorem Starts.mem_of_le (hsteady : Steady count shift) (hstop : shift < stop.nanos)
    (h : Starts count shift months b) (hladder : Ladder (.months count) stop b rest)
    (h' : Starts count shift months' b') (hfrom : b.nanos ≤ b'.nanos)
    (hto : ∃ last ∈ b :: rest, b'.nanos ≤ last.nanos) : b' ∈ b :: rest := by
  induction rest generalizing b months with
  | nil =>
      obtain ⟨last, hlast, hto⟩ := hto
      rw [List.mem_singleton.mp hlast] at hto
      rcases Int.lt_trichotomy months months' with hlt | rfl | hgt
      · have := h.lt_of_lt h' hlt
        omega
      · exact List.mem_singleton.mpr (h'.unique h)
      · have := h'.lt_of_lt h hgt
        omega
  | cons second rest ih =>
      rcases Int.lt_trichotomy months months' with hlt | rfl | hgt
      · have hsecond := h.next hsteady hstop hladder
        have hwidth : (count : Int) ≤ months' - months :=
          Int.le_of_dvd (by omega) (Int.dvd_sub h'.dvd h.dvd)
        have hbehind := h.lt_of_lt h' hlt
        have hfrom' : second.nanos ≤ b'.nanos := by
          rcases Int.lt_or_eq_of_le (show months + count ≤ months' by omega) with hlt | rfl
          · exact Int.le_of_lt (hsecond.lt_of_lt h' hlt)
          · exact Int.le_of_eq (by rw [h'.unique hsecond])
        obtain ⟨last, hlast, hto⟩ := hto
        rcases List.mem_cons.mp hlast with rfl | hlast
        · omega
        · cases hladder with
          | rung _ _ _ hrest =>
              exact List.mem_cons_of_mem _ (ih hsecond hrest hfrom' ⟨last, hlast, hto⟩)
      · rw [h'.unique h]
        exact List.mem_cons_self
      · have := h'.lt_of_lt h hgt
        omega

/-- Phased months are aligned. For a phase that leads to one place in a month, the boundaries over a
range from the epoch on bound it, each of them is the start of its own period, and each that lies
within the boundaries of another such range is one of those too. -/
theorem boundaries_aligned (hshift : shift? phase (.months count) = .ok (some offset))
    (hsteady : Steady count (offset * nanosPerMilli))
    (hstart : 0 ≤ range.start.nanos) (hstop : offset * nanosPerMilli < range.stop.nanos)
    (hother : 0 ≤ other.start.nanos) (hother' : offset * nanosPerMilli < other.stop.nanos)
    (h : Windows.boundaries range (some (.months count)) phase = .ok boundaries)
    (h' : Windows.boundaries other (some (.months count)) phase = .ok others) :
    (range.isEmpty = false → Bound range boundaries) ∧
      (∀ b ∈ boundaries, (Interval.months count).floor b offset = .ok b) ∧
      ∀ b ∈ boundaries, ∀ before ∈ others, ∀ behind ∈ others,
        before.nanos ≤ b.nanos → b.nanos ≤ behind.nanos → b ∈ others := by
  cases hempty : range.isEmpty with
  | true =>
      rw [boundaries_of_isEmpty hempty h]
      exact ⟨(nomatch ·), nofun, nofun⟩
  | false =>
  obtain ⟨hcount, hbound, months, first, rest, rfl, hfirst, hladder⟩ :=
    boundaries_starts hempty hshift hsteady hstart hstop h
  have hstarts := hfirst.of_mem hsteady hstop hladder
  refine ⟨fun _ => hbound, fun b hb => ?_, fun b hb before hbefore behind hbehind hfrom hto => ?_⟩
  · obtain ⟨months, hb⟩ := hstarts b hb
    exact hb.floor_eq hcount
  · cases hempty' : other.isEmpty with
    | true =>
        rw [boundaries_of_isEmpty hempty' h'] at hbefore
        cases hbefore
    | false =>
    obtain ⟨months, hb⟩ := hstarts b hb
    obtain ⟨-, -, months', first', rest', rfl, hfirst', hladder'⟩ :=
      boundaries_starts hempty' hshift hsteady hother hother' h'
    refine hfirst'.mem_of_le hsteady hother' hladder' hb ?_ ⟨behind, hbehind, hto⟩
    rcases List.mem_cons.mp hbefore with rfl | hbefore
    · exact hfrom
    · exact Int.le_trans
        (Int.le_of_lt ((List.pairwise_cons.mp hladder'.ascending).1 before hbefore)) hfrom

/-- Months from their fifth day on, over two ranges around the end of a winter. -/
theorem boundaries_aligned_fifth :
    let winter : TimeRange := ⟨.utc 1705276800000000000, .utc 1710892800000000000⟩
    let spring : TimeRange := ⟨.utc 1707523200000000000, .utc 1714521600000000000⟩
    let phase : Option Phase := some (.offset (.millis 345600000))
    ∃ boundaries others, Windows.boundaries winter (some (.months 1)) phase = .ok boundaries ∧
      Windows.boundaries spring (some (.months 1)) phase = .ok others ∧
      boundaries = [.utc 1704412800000000000, .utc 1707091200000000000,
        .utc 1709596800000000000, .utc 1712275200000000000] ∧
      Bound winter boundaries ∧
      (∀ b ∈ boundaries, (Interval.months 1).floor b 345600000 = .ok b) ∧
      ∀ b ∈ boundaries, ∀ before ∈ others, ∀ behind ∈ others,
        before.nanos ≤ b.nanos → b.nanos ≤ behind.nanos → b ∈ others := by
  intro winter spring phase
  have hwinter : Windows.boundaries winter (some (.months 1)) phase = .ok
      [.utc 1704412800000000000, .utc 1707091200000000000, .utc 1709596800000000000,
        .utc 1712275200000000000] := by cbv
  have hspring : Windows.boundaries spring (some (.months 1)) phase = .ok
      [.utc 1707091200000000000, .utc 1709596800000000000, .utc 1712275200000000000,
        .utc 1714867200000000000] := by cbv
  have hshift : shift? phase (.months 1) = .ok (some 345600000) := rfl
  obtain ⟨hbound, haligned⟩ := boundaries_aligned hshift ⟨by decide, .inl (by decide)⟩ (by decide)
    (by decide) (by decide) (by decide) hwinter hspring
  exact ⟨_, _, hwinter, hspring, rfl, hbound (by decide), haligned⟩

/-- Months from their thirtieth day on: February has none, and the windows behind it start on the
second of each month, where a range that starts later has other ones. -/
theorem boundaries_aligned_thirtieth :
    let spring : TimeRange := ⟨.utc 1710460800000000000, .utc 1715731200000000000⟩
    let april : TimeRange := ⟨.utc 1712707200000000000, .utc 1713571200000000000⟩
    let phase : Option Phase := some (.offset (.millis 2592000000))
    Windows.boundaries spring (some (.months 1)) phase = .ok [.utc 1709337600000000000,
      .utc 1712016000000000000, .utc 1714608000000000000, .utc 1717286400000000000] ∧
    (Interval.months 1).floor (.utc 1712016000000000000) 2592000000 =
      .ok (.utc 1711843200000000000) ∧
    Windows.boundaries april (some (.months 1)) phase = .ok [.utc 1711843200000000000,
      .utc 1714521600000000000] :=
  ⟨by cbv, by cbv, by cbv⟩

end Sluice.Windows
