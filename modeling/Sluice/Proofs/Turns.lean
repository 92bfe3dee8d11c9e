import Sluice.Proofs.PagerSteps
import Sluice.Proofs.Paging

/-!
What one turn of a pager does: it hands over the first part of what is owed and owes the rest, or
starts to bridge a time. Where a read is clear, only the store and the limit on deep paging can make
it fail.
-/
namespace Sluice.Pager

open Document Sorting

variable {p : Pager} {documents : List Members}

/-! ## Handing rows over -/

/-- The pager once it has handed over `n` rows. -/
def credit (p : Pager) (n : Nat) : Pager :=
  { p with
    emitted := p.emitted + n
    state := if p.remaining.map (· - n) = some 0 then .done else p.state }

theorem remaining_credit (p : Pager) (n : Nat) :
    (p.credit n).remaining = p.remaining.map (· - n) := by
  simp only [remaining, credit, Option.map_map]
  cases p.limit with
  | none => rfl
  | some limit => simp [Nat.sub_sub]

theorem clip_eq_self {α : Type} {rows : List α} (h : ∀ n, p.remaining = some n → rows.length ≤ n) :
    p.clip rows = rows := by
  unfold clip
  split
  · rename_i n hn
    exact List.take_of_length_le (h n hn)
  · rfl

theorem clip_append {α : Type} {rows rest : List α}
    (h : ∀ n, p.remaining = some n → rows.length ≤ n) :
    p.clip (rows ++ rest) = rows ++ (p.credit rows.length).clip rest := by
  rw [clip, clip, remaining_credit]
  cases hn : p.remaining with
  | none => rfl
  | some n => simp only [Option.map_some, List.take_append, List.take_of_length_le (h n hn)]

theorem emit_eq {rows : List Keyed} (h : ∀ n, p.remaining = some n → rows.length ≤ n) :
    p.emit rows =
      (⟨arrange p.direction (rows.map fun row => ⟨row.2, false⟩),
        (p.credit rows.length).state = .done⟩, p.credit rows.length) := by
  have hremaining : ({ p with emitted := p.emitted + rows.length } : Pager).remaining =
      p.remaining.map (· - rows.length) := remaining_credit p rows.length
  have hcredit : (if ({ p with emitted := p.emitted + rows.length } : Pager).remaining = some 0 then
      { p with emitted := p.emitted + rows.length, state := .done }
      else { p with emitted := p.emitted + rows.length }) = p.credit rows.length := by
    rw [hremaining, credit]
    split <;> rfl
  have hemit : p.emit rows =
      let ordered := arrange p.direction (p.clip rows)
      let credited : Pager :=
        if ({ p with emitted := p.emitted + ordered.length } : Pager).remaining = some 0 then
          { p with emitted := p.emitted + ordered.length, state := .done }
        else { p with emitted := p.emitted + ordered.length }
      (⟨ordered.map fun row => ⟨row.2, false⟩, credited.state = .done⟩, credited) := rfl
  rw [hemit, clip_eq_self h]
  simp only [length_arrange, map_arrange, hcredit]

theorem clip_credit_of_done {α : Type} {n : Nat} (hlive : p.state ≠ .done)
    (h : (p.credit n).state = .done) (rows : List α) : (p.credit n).clip rows = [] := by
  have hnone : (p.credit n).remaining = some 0 := by
    rw [remaining_credit]
    simp only [credit] at h
    split at h
    · assumption
    · exact absurd h hlive
  rw [clip, hnone]
  exact List.take_zero

/-! ## Leaving times behind -/

/-- The time of a document, in what is left of the range. -/
structure Reaches (p : Pager) (documents : List Members) (m : Moment) : Prop where
  source : ∃ document ∈ documents, (time? p.options.timeField document).isSome = true ∧
    key p.options.timeField document = m
  covers : p.range.covers m = true

section Advancing

variable {m : Moment} {range : TimeRange}

theorem Reaches.aligned (h : p.Reaches documents m) : m.truncateMillis.nanos = m.nanos := by
  obtain ⟨document, -, -, rfl⟩ := h.source
  exact Moment.truncateMillis_eq_self (Moment.truncateMillis_emod _)

theorem Sound.writable (h : p.Sound documents) (hm : p.Reaches documents m) : m.Writable := by
  obtain ⟨document, hmem, hsome, rfl⟩ := hm.source
  exact (h.timed document hmem).writable_key hsome

theorem Clear.civil (h : p.Clear documents) (hm : p.Reaches documents m) : m.Civil := by
  obtain ⟨document, hmem, hsome, rfl⟩ := hm.source
  exact (h.dated document hmem).civil_key h.plain hsome

theorem exists_advanceTo (h : m.Civil) (p : Pager) (inclusive : Bool) :
    ∃ range, p.advanceTo m inclusive = .ok range := by
  obtain ⟨later, hlater⟩ := h.later_milli
  unfold advanceTo
  split
  · exact ⟨_, rfl⟩
  · exact ⟨_, bind_eq_ok.mpr ⟨later, hlater, rfl⟩⟩
  · exact ⟨_, bind_eq_ok.mpr ⟨later, hlater, rfl⟩⟩
  · exact ⟨_, rfl⟩

/-- One end of the range stays, and the other one comes to be at `m` or one millisecond later. -/
theorem advanceTo_eq_ok {inclusive : Bool} (hm : m.Writable)
    (h : p.advanceTo m inclusive = .ok range) :
    ∃ edge : Moment, edge.Writable ∧
      (p.direction = .asc ∧ range = { p.range with start := edge } ∧
          edge.nanos = m.nanos + (!inclusive).toNat * Moment.nanosPerMilli ∨
        p.direction = .desc ∧ range = { p.range with stop := edge } ∧
          edge.nanos = m.nanos + inclusive.toNat * Moment.nanosPerMilli) := by
  unfold advanceTo at h
  cases hdirection : p.direction <;> cases inclusive <;> simp only [hdirection] at h
  case asc.true =>
    cases h
    exact ⟨m, hm, .inl ⟨rfl, rfl, by simp⟩⟩
  case asc.false =>
    obtain ⟨edge, hlater, h⟩ := bind_eq_ok.mp h
    cases h
    obtain ⟨rfl, hedge⟩ := hm.later_milli hlater
    exact ⟨_, hedge, .inl ⟨rfl, rfl, by simp⟩⟩
  case desc.true =>
    obtain ⟨edge, hlater, h⟩ := bind_eq_ok.mp h
    cases h
    obtain ⟨rfl, hedge⟩ := hm.later_milli hlater
    exact ⟨_, hedge, .inr ⟨rfl, rfl, by simp⟩⟩
  case desc.false =>
    cases h
    exact ⟨m, hm, .inr ⟨rfl, rfl, by simp⟩⟩

/-- The range keeps the times behind `m`, and `m` itself if it is to be kept. -/
theorem Sound.covers_advanceTo {inclusive : Bool} (h : p.Sound documents)
    (hm : p.Reaches documents m) (hadvance : p.advanceTo m inclusive = .ok range) :
    range.Writable ∧ ∀ x, range.covers x = (p.range.covers x &&
      decide (p.direction.rank m.nanos <
        p.direction.rank x.truncateMillis.nanos + inclusive.toNat)) := by
  have haligned := hm.aligned
  have hmod := m.truncateMillis_emod
  have hstop := p.range.stop.truncateMillis_emod
  have hcovers := hm.covers
  simp only [TimeRange.covers, Bool.and_eq_true, decide_eq_true_eq] at hcovers
  obtain ⟨edge, hedge, ⟨hdirection, rfl, hnanos⟩ | ⟨hdirection, rfl, hnanos⟩⟩ :=
    advanceTo_eq_ok (h.writable hm) hadvance
  · refine ⟨⟨hedge, h.range.stop⟩, fun x => ?_⟩
    have hx := x.truncateMillis_emod
    rw [Bool.eq_iff_iff]
    simp only [TimeRange.covers, Bool.and_eq_true, decide_eq_true_eq, hdirection, Direction.rank,
      edge.truncateMillis_nanos, hnanos]
    simp only [Moment.nanosPerMilli] at *
    cases inclusive <;> simp <;> omega
  · refine ⟨⟨h.range.start, hedge⟩, fun x => ?_⟩
    have hx := x.truncateMillis_emod
    rw [Bool.eq_iff_iff]
    simp only [TimeRange.covers, Bool.and_eq_true, decide_eq_true_eq, hdirection, Direction.rank,
      edge.truncateMillis_nanos, hnanos]
    simp only [Moment.nanosPerMilli] at *
    cases inclusive <;> simp <;> omega

end Advancing

/-! ## The invariant -/

/-- A pager partway through the documents of one time: the offset is that of whole pages, and both a
page and more documents than the offset are there. -/
structure Partway (p : Pager) (documents : List Members) (m : Moment) : Prop where
  offset_lt : p.bridgeOffset < (p.ties documents m.truncateMillis.nanos).length
  fetchSize_le : p.options.fetchSize ≤ (p.ties documents m.truncateMillis.nanos).length
  fetchSize_dvd : p.options.fetchSize ∣ p.bridgeOffset

theorem Partway.next {m : Moment} {count : Nat} (h : p.Partway documents m)
    (hwhole : count = p.options.fetchSize)
    (hmore : p.bridgeOffset + count < (p.ties documents m.truncateMillis.nanos).length) :
    ({ p with bridgeOffset := p.bridgeOffset + count } : Pager).Partway documents m where
  offset_lt := hmore
  fetchSize_le := h.fetchSize_le
  fetchSize_dvd := Nat.dvd_add h.fetchSize_dvd (hwhole ▸ Nat.dvd_refl _)

/-- A pager that reads one time by offset: some documents of that time are left, all of them come
first in what is left of the range, and its searches so far have been of whole pages. -/
structure Bridges (p : Pager) (documents : List Members) (m : Moment) : Prop
    extends Reaches p documents m, Partway p documents m where
  least : ∀ document ∈ p.within documents, p.direction.rank m.nanos ≤ p.rank document
  fetchSize_pos : 0 < p.options.fetchSize

/-- What holds between two turns. -/
structure Between (p : Pager) (documents : List Members) : Prop extends Sound p documents where
  not_done : p.state ≠ .done
  offset : p.state ≠ .bridging → p.bridgeOffset = 0
  bridge : p.state = .bridging → ∃ m, p.lastSeen = some m ∧ p.Bridges documents m

/-- The same read, further on. -/
structure Follows (p' p : Pager) : Prop where
  indices : p'.indices = p.indices
  filter : p'.filter = p.filter
  options : p'.options = p.options
  direction : p'.direction = p.direction

/-- A batch holds the first part of what a pager owes, and the pager behind it owes the rest. -/
structure Delivers (documents : List Members) (p : Pager) (batch : Batch) (p' : Pager) : Prop where
  follows : p'.Follows p
  rows : (p.owed documents).map (row p.options.timeField) =
    arrange p.direction batch.rows ++
      if batch.eof then [] else (p'.owed documents).map (row p.options.timeField)
  live : batch.eof = false → p'.Between documents
  subset : ∀ document ∈ p'.within documents, document ∈ p.within documents
  progress : batch.eof = true ∨ batch.rows ≠ [] ∨ p.state ≠ .bridging ∧ p'.state = .bridging

/-- What taking in an answer gives: a batch of what is owed or, where the read is not clear, an
error. -/
structure Receives (documents : List Members) (p : Pager) (result : Except ReadError Batch)
    (p' : Pager) : Prop where
  delivers : ∀ batch, result = .ok batch → Delivers documents p batch p'
  clear : p.Clear documents → ∃ batch, result = .ok batch

theorem Delivers.receives {batch : Batch} {p' : Pager} (h : Delivers documents p batch p') :
    Receives documents p (.ok batch) p' where
  delivers := by
    rintro _ ⟨⟩
    exact h
  clear := fun _ => ⟨batch, rfl⟩

theorem Receives.of_error {e : ReadError} {p' : Pager} (h : ¬p.Clear documents) :
    Receives documents p (.error e) p' where
  delivers := nofun
  clear := fun hclear => absurd hclear h

/-! ## Pages -/

/-- A document as a pager reads it. -/
def entry (timeField : String) (document : Members) : Keyed :=
  (key timeField document, (row timeField document).log)

theorem map_entry (timeField : String) (found : List Members) :
    ((found.map (entry timeField)).map fun row => (⟨row.2, false⟩ : Row)) =
      found.map (row timeField) := by
  rw [List.map_map]
  exact List.map_congr_left fun document _ => row_eta timeField document

theorem of_mapM_keyed (htimed : ∀ document ∈ documents, Timed p.options.timeField document)
    {found : List Members} {rows : List Keyed}
    (hfound : ∀ document ∈ found, document ∈ documents ∧
      (time? p.options.timeField document).isSome = true)
    (hrows : found.mapM (keyed p.options.timeField) = .ok rows) :
    rows = found.map (entry p.options.timeField) := by
  induction found generalizing rows with
  | nil =>
      cases hrows
      rfl
  | cons document found ih =>
      obtain ⟨hmem, hsome⟩ := hfound document List.mem_cons_self
      rw [List.mapM_cons] at hrows
      obtain ⟨row, hrow, hrows⟩ := bind_eq_ok.mp hrows
      obtain ⟨rest, hrest, hrows⟩ := bind_eq_ok.mp hrows
      cases hrows
      rw [(htimed document hmem).keyed hsome] at hrow
      split at hrow
      · cases hrow
        rw [ih (fun document hmem => hfound document (List.mem_cons_of_mem _ hmem)) hrest]
        rfl
      · cases hrow

theorem Clear.mapM_keyed (h : p.Clear documents) {found : List Members}
    (hfound : ∀ document ∈ found, document ∈ documents ∧
      (time? p.options.timeField document).isSome = true) :
    found.mapM (keyed p.options.timeField) = .ok (found.map (entry p.options.timeField)) :=
  mapM_eq_ok_map fun document hmem =>
    (h.dated document (hfound document hmem).1).keyed h.plain (hfound document hmem).2

theorem isSome_of_mem_within {document : Members} (h : document ∈ p.within documents) :
    document ∈ documents ∧ (time? p.options.timeField document).isSome = true := by
  obtain ⟨hmem, ⟨m, hm, -⟩, -⟩ := mem_within.mp h
  exact ⟨hmem, by rw [hm]; rfl⟩

/-- The last time of a page can be advanced to. -/
theorem reaches_key {document : Members} (hmem : document ∈ p.within documents) :
    p.Reaches documents (key p.options.timeField document) := by
  obtain ⟨hdocument, hsome⟩ := isSome_of_mem_within hmem
  obtain ⟨-, ⟨m, hm, hcovers⟩, -⟩ := mem_within.mp hmem
  refine ⟨⟨document, hdocument, hsome, rfl⟩, ?_⟩
  have htruncated : m.truncateMillis.truncateMillis.nanos = m.truncateMillis.nanos :=
    Moment.truncateMillis_eq_self m.truncateMillis_emod
  rw [key, hm, Option.getD_some, TimeRange.covers, htruncated]
  exact hcovers

theorem rank_eq_rank_key {document : Members} (h : document ∈ p.within documents) :
    p.rank document = p.direction.rank (key p.options.timeField document).nanos := by
  rw [rank, key_nanos (isSome_of_mem_within h).2]

theorem requestSize_le_remaining {n : Nat} (h : p.remaining = some n) : p.requestSize ≤ n := by
  simp only [requestSize, h]
  exact Nat.min_le_left _ _

/-- A page takes all that may be emitted, or it is a whole page. -/
theorem requestSize_eq_fetchSize (h : p.remaining ≠ some p.requestSize) :
    p.requestSize = p.options.fetchSize := by
  unfold requestSize at h ⊢
  split
  · rename_i n hn
    simp only [hn, ne_eq, Option.some.injEq] at h
    omega
  · rfl

theorem requestSize_pos (hfetch : 0 < p.options.fetchSize) (hremaining : p.remaining ≠ some 0) :
    0 < p.requestSize := by
  unfold requestSize
  split
  · rename_i n hn
    have : n ≠ 0 := fun hzero => hremaining (hzero ▸ hn)
    omega
  · exact hfetch

/-- Documents that may all be emitted, handed over by a pager that has left them behind. -/
theorem emit_entries (p : Pager) {found : List Members} (timeField : String)
    (h : ∀ n, p.remaining = some n → found.length ≤ n) :
    p.emit (found.map (entry timeField)) =
      (⟨arrange p.direction (found.map (row timeField)), (p.credit found.length).state = .done⟩,
        p.credit found.length) := by
  have hlength : (found.map (entry timeField)).length = found.length := List.length_map _
  rw [emit_eq (by rwa [hlength]), map_entry, hlength]

theorem owed_of_state (hlive : p.Between documents) (hstate : p.state ≠ .bridging) :
    p.owed documents = p.clip (p.within documents) := by
  rw [owed, hlive.offset hstate, List.drop_zero]

/-- Handing rows over leaves the state as it is, or ends the read. -/
theorem state_credit {n : Nat} (h : (p.credit n).state ≠ .done) : (p.credit n).state = p.state := by
  simp only [credit] at h ⊢
  split at h
  · exact absurd rfl h
  · rename_i hmore
    rw [if_neg hmore]

theorem state_credit_of_remaining {n : Nat} (h : p.remaining = some n) :
    (p.credit n).state = .done := by
  simp only [credit, h, Option.map_some, Nat.sub_self, ↓reduceIte]

theorem Between.credit (h : p.Between documents) {n : Nat} (hlive : (p.credit n).state ≠ .done) :
    (p.credit n).Between documents where
  __ := h
  not_done := hlive
  offset := fun hstate => h.offset (state_credit hlive ▸ hstate)
  bridge := fun hstate => by
    obtain ⟨m, hlast, hm⟩ := h.bridge (state_credit hlive ▸ hstate)
    exact ⟨m, hlast, { hm with }⟩

/-- The first documents that are owed, handed over by a pager that is past them. -/
theorem Delivers.of_emit {next : Pager} {found : List Members} {out : Batch × Pager}
    (hemit : next.emit (found.map (entry p.options.timeField)) = out) (hnext : next.Follows p)
    (hremaining : next.remaining = p.remaining) (hlive : next.state ≠ .done)
    (hfits : ∀ n, p.remaining = some n → found.length ≤ n) (hfound : found ≠ [])
    (hdrop : (p.within documents).drop p.bridgeOffset =
      found ++ (next.within documents).drop next.bridgeOffset)
    (hsubset : ∀ document ∈ next.within documents, document ∈ p.within documents)
    (hbetween : (next.credit found.length).state ≠ .done → next.Between documents) :
    Delivers documents p out.1 out.2 := by
  rw [next.emit_entries p.options.timeField (hremaining ▸ hfits)] at hemit
  subst hemit
  have howed : (p.credit found.length).clip ((next.within documents).drop next.bridgeOffset) =
      (next.credit found.length).owed documents := by
    rw [owed, clip, clip, remaining_credit, remaining_credit, hremaining]
    rfl
  refine ⟨⟨hnext.indices, hnext.filter, hnext.options, hnext.direction⟩, ?_, fun heof => ?_,
    hsubset, .inr (.inl ?_)⟩
  · rw [owed, hdrop, clip_append hfits, howed, List.map_append, hnext.direction, arrange_arrange]
    by_cases hdone : (next.credit found.length).state = .done
    · have hnone : (next.credit found.length).owed documents = [] :=
        clip_credit_of_done hlive hdone _
      simp only [hnone, hdone, decide_true, ↓reduceIte, List.map_nil]
    · simp only [hdone, decide_false, Bool.false_eq_true, ↓reduceIte]
  · have hlive := of_decide_eq_false heof
    exact (hbetween hlive).credit hlive
  · intro hnil
    have hlength := congrArg List.length hnil
    rw [length_arrange, List.length_map, List.length_nil] at hlength
    exact hfound (List.eq_nil_of_length_eq_zero hlength)

/-- A page with all that is left ends the read. -/
theorem Between.lastPage (h : p.Between documents) (hpaging : p.state = .paging)
    (hall : (p.within documents).length ≤ p.requestSize) {out : Batch × Pager}
    (hemit : ({ p with state := .done } : Pager).emit
      ((p.within documents).map (entry p.options.timeField)) = out) :
    Delivers documents p out.1 out.2 := by
  have hfits : ∀ n, p.remaining = some n → (p.within documents).length ≤ n :=
    fun n hn => Nat.le_trans hall (requestSize_le_remaining hn)
  have hdone : (({ p with state := .done } : Pager).credit (p.within documents).length).state =
      .done := by
    simp only [Pager.credit, ite_self]
  rw [@emit_entries { p with state := .done } _ p.options.timeField hfits] at hemit
  subst hemit
  refine ⟨⟨rfl, rfl, rfl, rfl⟩, ?_, ?_, fun _ hmem => hmem, .inl ?_⟩
  · rw [owed_of_state h (by simp [hpaging]), clip_eq_self hfits]
    simp [hdone, arrange_arrange]
  · simp [hdone]
  · simp [hdone]

/-- A page with as many as may still be emitted ends the read. -/
theorem Between.fullPage (h : p.Between documents) (hpaging : p.state = .paging)
    (hmore : p.requestSize ≤ (p.within documents).length)
    (hremaining : p.remaining = some p.requestSize) {out : Batch × Pager}
    (hemit : p.emit (((p.within documents).take p.requestSize).map
      (entry p.options.timeField)) = out) :
    Delivers documents p out.1 out.2 := by
  have hlength : ((p.within documents).take p.requestSize).length = p.requestSize := by
    rw [List.length_take, Nat.min_eq_left hmore]
  have hfits : ∀ n, p.remaining = some n →
      ((p.within documents).take p.requestSize).length ≤ n := by
    intro n hn
    rw [hlength]
    exact requestSize_le_remaining hn
  have hdone : (p.credit ((p.within documents).take p.requestSize).length).state = .done := by
    rw [hlength]
    exact state_credit_of_remaining hremaining
  have hclip : p.clip (p.within documents) = (p.within documents).take p.requestSize := by
    simp only [clip, hremaining]
  rw [p.emit_entries p.options.timeField hfits] at hemit
  subst hemit
  refine ⟨⟨rfl, rfl, rfl, rfl⟩, ?_, ?_, fun _ hmem => hmem, .inl ?_⟩
  · rw [owed_of_state h (by simp [hpaging]), hclip]
    simp only [hdone, arrange_arrange, decide_true, ↓reduceIte, List.append_nil]
  · simp only [hdone, decide_true, Bool.true_eq_false, false_implies]
  · simp only [hdone, decide_true]

/-- The first row of a page is the first of all. -/
theorem rank_le_of_head {n : Nat} {first document : Members}
    (hfirst : ((p.within documents).take n).head? = some first)
    (hmem : document ∈ p.within documents) : p.rank first ≤ p.rank document := by
  have hhead : (p.within documents).head? = some first := by
    rw [List.head?_take] at hfirst
    split at hfirst
    · cases hfirst
    · exact hfirst
  obtain ⟨rest, hrest⟩ := List.head?_eq_some_iff.mp hhead
  have hsorted := p.pairwise_within documents
  rw [hrest] at hmem hsorted
  rcases List.mem_cons.mp hmem with rfl | hmem
  · exact Int.le_refl _
  · exact (List.pairwise_cons.mp hsorted).1 document hmem

/-- All documents of a page whose first and last are of one time are of that time. -/
theorem length_take_le_ties {n : Nat} {first last : Members}
    (hfirst : ((p.within documents).take n).head? = some first)
    (hlast : ((p.within documents).take n).getLast? = some last)
    (hrank : p.rank first = p.rank last) :
    ((p.within documents).take n).length ≤
      (p.ties documents (key p.options.timeField last).truncateMillis.nanos).length := by
  have hpage := (p.pairwise_within documents).sublist (List.take_sublist n _)
  have hmemLast := List.mem_of_mem_take (List.mem_of_getLast? hlast)
  have hreaches := reaches_key hmemLast
  have hall : ((p.within documents).take n).filter (fun document =>
      tick p.options.timeField document =
        (key p.options.timeField last).truncateMillis.nanos) = (p.within documents).take n := by
    refine List.filter_eq_self.mpr fun document hmem => decide_eq_true ?_
    have hties := rank_eq_of_head_of_getLast hpage hfirst hlast hrank document hmem
    rw [hreaches.aligned, key_nanos (isSome_of_mem_within hmemLast).2]
    exact Direction.rank_inj.mp (hties.trans hrank)
  rw [← filter_tick_within hreaches.covers]
  calc ((p.within documents).take n).length
      = (((p.within documents).take n).filter (fun document =>
          tick p.options.timeField document =
            (key p.options.timeField last).truncateMillis.nanos)).length := by rw [hall]
    _ ≤ _ := ((List.take_sublist _ _).filter _).length_le

/-- A page of one time only is bridged. -/
theorem Between.pageOfTies (h : p.Between documents) (hpaging : p.state = .paging)
    (hmore : p.requestSize ≤ (p.within documents).length)
    (hremaining : p.remaining ≠ some p.requestSize) {first last : Members}
    (hfirst : ((p.within documents).take p.requestSize).head? = some first)
    (hlast : ((p.within documents).take p.requestSize).getLast? = some last)
    (htie : (key p.options.timeField first).nanos = (key p.options.timeField last).nanos) :
    Delivers documents p ⟨[], false⟩
      { p with
        lastSeen := some (key p.options.timeField last), bridging := true, bridgeOffset := 0
        state := .bridging } := by
  have hmemFirst := List.mem_of_mem_take (List.mem_of_head? hfirst)
  have hmemLast := List.mem_of_mem_take (List.mem_of_getLast? hlast)
  have hrank : p.rank first = p.rank last := by
    rw [rank_eq_rank_key hmemFirst, rank_eq_rank_key hmemLast, htie]
  have hlength : ((p.within documents).take p.requestSize).length = p.options.fetchSize := by
    rw [List.length_take, Nat.min_eq_left hmore, requestSize_eq_fetchSize hremaining]
  have hsize := length_take_le_ties hfirst hlast hrank
  have hpos := List.length_pos_of_mem (List.mem_of_head? hfirst)
  rw [hlength] at hsize hpos
  have hreaches := reaches_key hmemLast
  have hbridges : Bridges { p with
      lastSeen := some (key p.options.timeField last), bridging := true, bridgeOffset := 0
      state := .bridging } documents (key p.options.timeField last) := {
    source := hreaches.source
    covers := hreaches.covers
    fetchSize_pos := hpos
    offset_lt := Nat.lt_of_lt_of_le hpos hsize
    least := fun document hmem => by
      have hle := rank_le_of_head hfirst hmem
      rwa [hrank, rank_eq_rank_key hmemLast] at hle
    fetchSize_le := hsize
    fetchSize_dvd := Nat.dvd_zero _ }
  refine ⟨⟨rfl, rfl, rfl, rfl⟩, ?_, fun _ => ?_, fun _ hmem => hmem,
    .inr (.inr ⟨by simp [hpaging], rfl⟩)⟩
  · rw [owed_of_state h (by simp [hpaging])]
    simp only [arrange_nil, List.nil_append, Bool.false_eq_true, ↓reduceIte]
    rfl
  · exact { h with
      not_done := by simp
      offset := fun hstate => absurd rfl hstate
      bridge := fun _ => ⟨_, rfl, hbridges⟩ }

/-- A page of several times gives up its rows at the last of them, and the next one starts there. -/
theorem Between.advancingPage (h : p.Between documents) (hpaging : p.state = .paging)
    {first last : Members}
    (hfirst : ((p.within documents).take p.requestSize).head? = some first)
    (hlast : ((p.within documents).take p.requestSize).getLast? = some last)
    (hne : (key p.options.timeField first).nanos ≠ (key p.options.timeField last).nanos)
    {range : TimeRange} (hadvance : p.advanceTo (key p.options.timeField last) true = .ok range)
    {out : Batch × Pager}
    (hemit : ({ p with lastSeen := some (key p.options.timeField last), range } : Pager).emit
      ((((p.within documents).take p.requestSize).map (entry p.options.timeField)).filter
        (·.1.nanos ≠ (key p.options.timeField last).nanos)) = out) :
    Delivers documents p out.1 out.2 := by
  have hmemFirst := List.mem_of_mem_take (List.mem_of_head? hfirst)
  have hmemLast := List.mem_of_mem_take (List.mem_of_getLast? hlast)
  have hsorted := p.pairwise_within documents
  obtain ⟨hrange, hcovers⟩ := h.covers_advanceTo (reaches_key hmemLast) hadvance
  simp only [Bool.toNat_true, Nat.cast_one, Int.lt_add_one_iff] at hcovers
  have hlater := @within_range p documents range (fun t =>
    p.direction.rank (key p.options.timeField last).nanos ≤ p.direction.rank t) hcovers
  rw [← rank_eq_rank_key hmemLast] at hlater
  generalize hkept : (p.within documents).filter (p.rank · < p.rank last) = kept
  have hsplit : p.within documents =
      kept ++ ({ p with range } : Pager).within documents := by
    rw [hlater, ← hkept]
    exact eq_filter_lt_append hsorted (p.rank last)
  have hrows : (((p.within documents).take p.requestSize).map (entry p.options.timeField)).filter
      (·.1.nanos ≠ (key p.options.timeField last).nanos) =
        kept.map (entry p.options.timeField) := by
    rw [← hkept, ← filter_ne_take hsorted hlast, List.filter_map]
    congr 1
    refine List.filter_congr fun document hmem => ?_
    have hmem := List.mem_of_mem_take hmem
    rw [Function.comp_apply, decide_eq_decide, rank_eq_rank_key hmem, rank_eq_rank_key hmemLast,
      Ne, Ne, Direction.rank_inj]
    rfl
  have hlength : kept.length ≤ p.requestSize := by
    rw [← hkept, ← filter_ne_take hsorted hlast]
    calc (((p.within documents).take p.requestSize).filter (p.rank · ≠ p.rank last)).length
        ≤ ((p.within documents).take p.requestSize).length := List.length_filter_le _ _
      _ ≤ p.requestSize := List.length_take_le _ _
  have hkept_ne : kept ≠ [] := by
    rw [← hkept, ← filter_ne_take hsorted hlast]
    refine List.ne_nil_of_mem (List.mem_filter.mpr ⟨List.mem_of_head? hfirst, decide_eq_true ?_⟩)
    rw [rank_eq_rank_key hmemFirst, rank_eq_rank_key hmemLast, Ne, Direction.rank_inj]
    exact hne
  have hoffset : p.bridgeOffset = 0 := h.offset (by simp [hpaging])
  rw [hrows] at hemit
  refine .of_emit hemit ⟨rfl, rfl, rfl, rfl⟩ rfl h.not_done
    (fun n hn => Nat.le_trans hlength (requestSize_le_remaining hn)) hkept_ne ?_ ?_ fun _ => ?_
  · rw [hoffset]
    exact hsplit
  · intro document hmem
    rw [hsplit]
    exact List.mem_append_right _ hmem
  · exact { h with
      range := hrange
      bridge := fun hbridging => by
        rw [hpaging] at hbridging
        cases hbridging }

theorem Between.page_eq (h : p.Between documents) {rows : List Keyed}
    (hits : ((p.within documents).take p.requestSize).mapM (keyed p.options.timeField) = .ok rows) :
    rows = ((p.within documents).take p.requestSize).map (entry p.options.timeField) ∧
      rows.length = min p.requestSize (p.within documents).length := by
  have hrows := of_mapM_keyed h.timed
    (fun document hmem => isSome_of_mem_within (List.mem_of_mem_take hmem)) hits
  exact ⟨hrows, by rw [hrows, List.length_map, List.length_take]⟩

theorem Between.page_bounds (h : p.Between documents) {rows : List Keyed} {first last : Keyed}
    (hbounded : Bounded p ⟨(p.within documents).length,
      (p.within documents).take p.requestSize, []⟩ rows first last) :
    ∃ a b, ((p.within documents).take p.requestSize).head? = some a ∧
      ((p.within documents).take p.requestSize).getLast? = some b ∧
      first = entry p.options.timeField a ∧ last = entry p.options.timeField b := by
  have hhead := hbounded.head
  have hgetLast := hbounded.getLast
  rw [(h.page_eq hbounded.hits).1] at hhead hgetLast
  rw [List.head?_map] at hhead
  rw [List.getLast?_map] at hgetLast
  obtain ⟨a, ha, rfl⟩ := Option.map_eq_some_iff.mp hhead
  obtain ⟨b, hb, rfl⟩ := Option.map_eq_some_iff.mp hgetLast
  exact ⟨a, b, ha, hb, rfl, rfl⟩

/-- A page of the documents that are left never fails where the read is clear. -/
theorem Between.takesPage (h : p.Between documents) (hpaging : p.state = .paging)
    (hmore : p.remaining ≠ some 0) {result : Except ReadError Batch} {p' : Pager}
    (htakes : TakesPage p ⟨(p.within documents).length,
      (p.within documents).take p.requestSize, []⟩ result p') :
    Receives documents p result p' := by
  have hfound : ∀ document ∈ (p.within documents).take p.requestSize, document ∈ documents ∧
      (time? p.options.timeField document).isSome = true :=
    fun document hmem => isSome_of_mem_within (List.mem_of_mem_take hmem)
  cases htakes with
  | unreadable hits =>
      refine .of_error fun hclear => ?_
      rw [hclear.mapM_keyed hfound] at hits
      cases hits
  | last hits total emit =>
      obtain ⟨rfl, hlength⟩ := h.page_eq hits
      have hall : (p.within documents).length ≤ p.requestSize := by
        rw [hlength] at total
        exact min_eq_right_iff.mp total
      rw [List.take_of_length_le hall] at emit
      exact (h.lastPage hpaging hall emit).receives
  | miscounted hits more size =>
      obtain ⟨-, hlength⟩ := h.page_eq hits
      rw [hlength] at more size
      dsimp only at more
      omega
  | full hwhole room emit =>
      obtain ⟨rfl, hlength⟩ := h.page_eq hwhole.hits
      rw [hwhole.size] at hlength
      exact (h.fullPage hpaging (by omega) room emit).receives
  | blank hwhole room =>
      -- A page that holds none is asked for only where pages are empty.
      refine .of_error fun hclear => ?_
      have hpos := requestSize_pos hclear.fetchSize_pos hmore
      rw [← hwhole.size] at hpos
      cases hpos
  | tied hbounded tie =>
      obtain ⟨first, last, hfirst, hlast, rfl, rfl⟩ := h.page_bounds hbounded
      obtain ⟨-, hlength⟩ := h.page_eq hbounded.hits
      rw [hbounded.size] at hlength
      exact (h.pageOfTies hpaging (by omega) hbounded.room hfirst hlast tie).receives
  | stuck hbounded apart advance =>
      obtain ⟨first, last, hfirst, hlast, rfl, rfl⟩ := h.page_bounds hbounded
      refine .of_error fun hclear => ?_
      have hreaches : p.Reaches documents (key p.options.timeField last) :=
        reaches_key (List.mem_of_mem_take (List.mem_of_getLast? hlast))
      obtain ⟨range, hrange⟩ := exists_advanceTo (hclear.civil hreaches) p true
      rw [entry, hrange] at advance
      cases advance
  | advanced hbounded apart advance emit =>
      obtain ⟨first, last, hfirst, hlast, rfl, rfl⟩ := h.page_bounds hbounded
      obtain ⟨rfl, -⟩ := h.page_eq hbounded.hits
      exact (h.advancingPage hpaging hfirst hlast apart advance emit).receives

/-! ## Bridges -/

/-- A batch behind which the range is empty may as well end the read. -/
theorem Delivers.closed {out : Batch × Pager} (h : Delivers documents p out.1 out.2) :
    Delivers documents p (closed out).1 (closed out).2 := by
  unfold Pager.closed
  split
  · rename_i hend
    have hnone : out.2.owed documents = [] := by
      rw [owed, within_of_isEmpty (Bool.and_eq_true_iff.mp hend).2, List.drop_nil]
      exact clip_eq_self fun n _ => Nat.zero_le n
    refine ⟨⟨h.follows.indices, h.follows.filter, h.follows.options, h.follows.direction⟩, ?_,
      (nomatch ·), h.subset, .inl rfl⟩
    rw [h.rows, hnone]
    cases out.1.eof <;> rfl
  · exact h

/-- The documents of the bridged time come first, and behind them those of later ranks. -/
theorem within_of_bridges {m : Moment} (hm : p.Bridges documents m) :
    p.within documents = p.ties documents m.truncateMillis.nanos ++
      (p.within documents).filter (p.direction.rank m.nanos < p.rank ·) := by
  have hcut := eq_filter_lt_append (p.pairwise_within documents) (p.direction.rank m.nanos + 1)
  have hties : (p.within documents).filter (p.rank · < p.direction.rank m.nanos + 1) =
      p.ties documents m.truncateMillis.nanos := by
    rw [← filter_tick_within hm.covers]
    refine List.filter_congr fun document hmem => ?_
    have hleast := hm.least document hmem
    rw [decide_eq_decide, hm.aligned, ← @Direction.rank_inj p.direction]
    simp only [rank] at hleast ⊢
    omega
  rw [hties] at hcut
  exact hcut

/-- The last documents of a bridged time, behind which paging goes on. -/
theorem Between.lastOfBridge (h : p.Between documents) {m : Moment} (hm : p.Bridges documents m)
    (hall : (p.ties documents m.truncateMillis.nanos).length ≤ p.requestSize + p.bridgeOffset)
    {range : TimeRange} (hadvance : p.advanceTo m false = .ok range) {out : Batch × Pager}
    (hemit : ({ p with range, bridging := false, bridgeOffset := 0, state := .paging } :
      Pager).emit (((p.ties documents m.truncateMillis.nanos).drop p.bridgeOffset).map
        (entry p.options.timeField)) = out) :
    Delivers documents p out.1 out.2 := by
  obtain ⟨hrange, hcovers⟩ := h.covers_advanceTo hm.toReaches hadvance
  simp only [Bool.toNat_false, Nat.cast_zero, Int.add_zero] at hcovers
  have hlater := @within_range p documents range
    (fun t => p.direction.rank m.nanos < p.direction.rank t) hcovers
  have hsplit : p.within documents = p.ties documents m.truncateMillis.nanos ++
      ({ p with range } : Pager).within documents := by
    rw [hlater]
    exact within_of_bridges hm
  have hoffset := hm.offset_lt
  generalize hrest : (p.ties documents m.truncateMillis.nanos).drop p.bridgeOffset = rest at hemit
  have hlength : rest.length ≤ p.requestSize := by
    rw [← hrest, List.length_drop]
    omega
  have hne : rest ≠ [] := by
    rw [← hrest, Ne, List.drop_eq_nil_iff]
    omega
  refine .of_emit hemit ⟨rfl, rfl, rfl, rfl⟩ rfl (by simp)
    (fun n hn => Nat.le_trans hlength (requestSize_le_remaining hn)) hne ?_ ?_ fun _ => ?_
  · rw [hsplit, List.drop_append_of_le_length (Nat.le_of_lt hoffset), hrest]
    rfl
  · intro document hmem
    rw [hsplit]
    exact List.mem_append_right _ hmem
  · exact { h with
      range := hrange
      not_done := by simp
      offset := fun _ => rfl
      bridge := nofun }

/-- A part of a bridged time, behind which more of it is left. -/
theorem Between.partOfBridge (h : p.Between documents) {m : Moment} (hm : p.Bridges documents m)
    (hlast : p.lastSeen = some m) (hstate : p.state = .bridging) (hpos : 0 < p.requestSize)
    (hmore : p.requestSize + p.bridgeOffset < (p.ties documents m.truncateMillis.nanos).length)
    {out : Batch × Pager}
    (hemit : ({ p with bridgeOffset := p.bridgeOffset + p.requestSize } : Pager).emit
      ((((p.ties documents m.truncateMillis.nanos).drop p.bridgeOffset).take p.requestSize).map
        (entry p.options.timeField)) = out) :
    Delivers documents p out.1 out.2 := by
  have hsplit := within_of_bridges hm
  have hoffset := hm.offset_lt
  have hdrop : (p.within documents).drop p.bridgeOffset =
      ((p.ties documents m.truncateMillis.nanos).drop p.bridgeOffset).take p.requestSize ++
        (p.within documents).drop (p.bridgeOffset + p.requestSize) := by
    have htake : ((p.within documents).drop p.bridgeOffset).take p.requestSize =
        ((p.ties documents m.truncateMillis.nanos).drop p.bridgeOffset).take p.requestSize := by
      rw [hsplit, List.drop_append_of_le_length (Nat.le_of_lt hoffset),
        List.take_append_of_le_length (by rw [List.length_drop]; omega)]
    rw [← htake, ← List.drop_drop, List.take_append_drop]
  generalize hpart :
    ((p.ties documents m.truncateMillis.nanos).drop p.bridgeOffset).take p.requestSize = part at *
  have hlength : part.length = p.requestSize := by
    rw [← hpart, List.length_take, List.length_drop]
    omega
  refine .of_emit hemit ⟨rfl, rfl, rfl, rfl⟩ rfl h.not_done ?_ ?_ hdrop (fun _ hmem => hmem)
    fun hlive => ?_
  · intro n hn
    rw [hlength]
    exact requestSize_le_remaining hn
  · refine List.ne_nil_of_length_pos ?_
    rwa [hlength]
  · -- As the read goes on, the part was a whole page, and the offset still counts whole pages.
    have hwhole : p.requestSize = p.options.fetchSize := by
      refine requestSize_eq_fetchSize fun hremaining => ?_
      rw [hlength] at hlive
      exact hlive (state_credit_of_remaining hremaining)
    exact { h with
      offset := fun hne => absurd hstate hne
      bridge := fun _ => ⟨m, hlast, { hm.next hwhole (by rwa [Nat.add_comm]), hm with }⟩ }

theorem mem_of_mem_part {m : Moment} {document : Members}
    (h : document ∈ ((p.ties documents m.truncateMillis.nanos).drop p.bridgeOffset).take
      p.requestSize) :
    document ∈ documents ∧ (time? p.options.timeField document).isSome = true := by
  have hmem := List.mem_of_mem_drop (List.mem_of_mem_take h)
  exact ⟨(List.mem_filter.mp hmem).1, (tick_of_mem_ties hmem).1⟩

theorem Between.part_eq (h : p.Between documents) {m : Moment} {rows : List Keyed}
    (hits : (((p.ties documents m.truncateMillis.nanos).drop p.bridgeOffset).take
      p.requestSize).mapM (keyed p.options.timeField) = .ok rows) :
    rows = (((p.ties documents m.truncateMillis.nanos).drop p.bridgeOffset).take
        p.requestSize).map (entry p.options.timeField) ∧
      rows.length = min p.requestSize
        ((p.ties documents m.truncateMillis.nanos).length - p.bridgeOffset) := by
  have hrows := of_mapM_keyed h.timed (fun _ => mem_of_mem_part) hits
  exact ⟨hrows, by rw [hrows, List.length_map, List.length_take, List.length_drop]⟩

/-- A part of a bridged time never fails where the read is clear. -/
theorem Between.takesPart (h : p.Between documents) {m : Moment} (hm : p.Bridges documents m)
    (hlast : p.lastSeen = some m) (hstate : p.state = .bridging) (hmore : p.remaining ≠ some 0)
    {result : Except ReadError Batch} {p' : Pager}
    (htakes : TakesPart p m ⟨(p.ties documents m.truncateMillis.nanos).length,
      ((p.ties documents m.truncateMillis.nanos).drop p.bridgeOffset).take p.requestSize, []⟩
        result p') :
    Receives documents p result p' := by
  have hoffset := hm.offset_lt
  have hpos := requestSize_pos hm.fetchSize_pos hmore
  cases htakes with
  | unreadable hits =>
      refine .of_error fun hclear => ?_
      rw [hclear.mapM_keyed fun _ => mem_of_mem_part] at hits
      cases hits
  | stuck hits total advance =>
      refine .of_error fun hclear => ?_
      obtain ⟨range, hrange⟩ := exists_advanceTo (hclear.civil hm.toReaches) p false
      rw [hrange] at advance
      cases advance
  | last hits total advance emit =>
      obtain ⟨rfl, hlength⟩ := h.part_eq hits
      rw [hlength] at total
      dsimp only at total
      rw [List.take_of_length_le (by rw [List.length_drop]; omega)] at emit
      exact (h.lastOfBridge hm (by omega) advance emit).closed.receives
  | miscounted hits more size =>
      obtain ⟨-, hlength⟩ := h.part_eq hits
      rw [hlength] at more size
      dsimp only at more
      omega
  | part hits more size emit =>
      obtain ⟨rfl, -⟩ := h.part_eq hits
      rw [size] at more emit
      exact (h.partOfBridge hm hlast hstate hpos more emit).closed.receives

end Sluice.Pager
