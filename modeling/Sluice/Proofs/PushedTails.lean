import Mathlib
import Sluice.Proofs.PushedFilters

/-!
Tails that a read takes over. A read backwards meets documents of one millisecond in the order of
the store and turns them round, so that its rows are the last ones of a read forwards but for rows of
one millisecond, which come backwards.
-/
namespace Sluice

/-! ## Rows of documents -/

/-- The millisecond of a row's time. -/
def Row.tick (row : Row) : Int :=
  ((row.time?.bind Moment.ofStored?).map (·.truncateMillis.nanos)).getD 0

theorem Document.Timed.tick_row {timeField : String} {document : Members}
    (h : Timed timeField document) (hm : (time? timeField document).isSome = true) :
    (row timeField document).tick = tick timeField document := by
  obtain ⟨m, hm⟩ := Option.isSome_iff_exists.mp hm
  have hwritable : m.Writable := by
    rcases h with hnone | ⟨s, t, htext, ht⟩
    · rw [time?, hnone] at hm
      cases hm
    · rw [time?, htext, Option.bind_some, Moment.ofStored?_text, ht, Option.some.injEq] at hm
      exact hm ▸ Moment.writable_of_parse? ht
  have hrow : (row timeField document).time? = some (.text m.format) := by
    rw [row, hm]
    exact Members.get?_insert_self timeKey _ _
  rw [Row.tick, hrow, Option.bind_some, Moment.ofStored?_text, Moment.parse?_format hwritable,
    tick_eq hm]
  rfl

/-! ## Reads in both directions -/

open Sorting

section Directions

variable {memory : MemoryStore} {session : Session ScriptedStore} {config : Config}
  {range : TimeRange} {found : List Members} {n : Nat}

/-- What is read is read in order, whatever may make a read fail. -/
structure Config.Reads (config : Config) (memory : MemoryStore) (range : TimeRange) : Prop where
  timed : ∀ document ∈ memory.searched config.indices, Document.Timed config.timeField document
  range : range.Writable
  fetchSize_lt : config.fetchSize < Word.unsignedLimit
  deepPagingLimit_lt : config.deepPagingLimit < Word.unsignedLimit
  maxResultWindow_lt : memory.maxResultWindow < Word.unsignedLimit

theorem Config.Reads.between (h : config.Reads memory range) (direction : Direction)
    (limit : Option Nat) :
    (Pager.start config.indices range config.pageOptions none direction limit).Between
      (memory.searched config.indices) :=
  Pager.between_start h.timed h.range nofun h.fetchSize_lt h.deepPagingLimit_lt

theorem Config.Reads.run_forward (h : config.Reads memory range)
    (hsession : session.Answers memory)
    (hfound : selected config.timeField range none (memory.searched config.indices) = found) :
    let stream := ((Reading.forward (config.pager range none)).run ScriptedStore.store none
      session).1
    stream.error = none → stream.batches.flatten =
      (byRank (Document.tick config.timeField) found).map (Document.row config.timeField) := by
  intro stream herror
  let p := config.pager range none
  have hbetween : p.Between (p.searched memory) := h.between .asc none
  obtain ⟨result, session', hcollect, hrows, -⟩ :=
    hbetween.collect hsession h.maxResultWindow_lt Word.unsignedLimit
  have howed : p.owed (p.searched memory) = byRank (Document.tick config.timeField) found := by
    rw [← hfound]
    exact Pager.owed_start _
  have hstream : stream = result := congrArg Prod.fst hcollect
  have harrange : result.batches.map (Pager.arrange p.direction) = result.batches := List.map_id _
  rw [hstream] at herror ⊢
  rw [← harrange, hrows herror, howed]
  rfl

theorem Config.Reads.run_backward (h : config.Reads memory range)
    (hsession : session.Answers memory)
    (hfound : selected config.timeField range none (memory.searched config.indices) = found) :
    let stream := ((Reading.backward (.start config.indices range config.pageOptions none .desc
      (some n))).run ScriptedStore.store none session).1
    stream.error = none → stream.batches.flatten =
      ((byRank (fun document => -Document.tick config.timeField document) found).take n).reverse.map
        (Document.row config.timeField) := by
  intro stream herror
  let p : Pager := .start config.indices range config.pageOptions none .desc (some n)
  have hbetween : p.Between (p.searched memory) := h.between .desc (some n)
  obtain ⟨result, session', hcollect, hrows, -⟩ :=
    hbetween.collect hsession h.maxResultWindow_lt Word.unsignedLimit
  have howed : p.owed (p.searched memory) =
      (byRank (fun document => -Document.tick config.timeField document) found).take n := by
    rw [← hfound]
    exact Pager.owed_start _
  have hstream : stream = result.reversed := by
    simp only [stream, Reading.run, reduceCtorEq, ↓reduceIte]
    rw [hcollect]
  rw [hstream, Stream.error_reversed] at herror
  rw [hstream, Stream.flatten_reversed herror, flatten_reverse_of_arranged (hrows herror), howed,
    List.map_reverse]
  rfl

/-- Two reads of the same documents in both directions: the one backwards meets documents of one
millisecond in the order in which the one forwards does. -/
theorem Config.Reads.run_backward_forward (h : config.Reads memory range)
    {forwards backwards : Session ScriptedStore} (hforwards : forwards.Answers memory)
    (hbackwards : backwards.Answers memory) (n : Nat) :
    let all := ((Reading.forward (config.pager range none)).run ScriptedStore.store none forwards).1
    let last := ((Reading.backward (.start config.indices range config.pageOptions none .desc
      (some n))).run ScriptedStore.store none backwards).1
    all.error = none → last.error = none →
      all.batches.flatten.Pairwise (fun a b => a.tick ≤ b.tick) ∧
        last.batches.flatten = (byRank Row.tick all.batches.flatten.reverse).rtake n := by
  intro all last hall hlast
  let tick := Document.tick config.timeField
  let row := Document.row config.timeField
  let found := selected config.timeField range none (memory.searched config.indices)
  have hrows : all.batches.flatten = (byRank tick found).map row := h.run_forward hforwards rfl hall
  have htail : last.batches.flatten = ((byRank (-tick ·) found).take n).reverse.map row :=
    h.run_backward hbackwards rfl hlast
  have htick : ∀ document ∈ found, (row document).tick = tick document := by
    intro document hmem
    obtain ⟨hsearched, ⟨m, hm, -⟩, -⟩ := mem_selected.mp hmem
    exact (h.timed document hsearched).tick_row (Option.isSome_iff_exists.mpr ⟨m, hm⟩)
  have hsorted : ∀ document ∈ byRank tick found, (row document).tick = tick document :=
    fun document hmem => htick document ((perm_byRank tick found).mem_iff.mp hmem)
  constructor
  · rw [hrows]
    refine List.pairwise_map.mpr ((pairwise_byRank tick found).imp_of_mem ?_)
    intro a b ha hb hle
    rw [hsorted a ha, hsorted b hb]
    exact hle
  · have hback : byRank Row.tick all.batches.flatten.reverse =
        ((byRank (-tick ·) found).map row).reverse := by
      calc byRank Row.tick all.batches.flatten.reverse
          = (byRank (fun document => (row document).tick) (byRank tick found).reverse).map row := by
            rw [hrows, ← List.map_reverse, byRank_map]
            rfl
        _ = (byRank tick (byRank tick found).reverse).map row := by
            congr 1
            exact byRank_congr fun document hmem => hsorted document (List.mem_reverse.mp hmem)
        _ = ((byRank (-tick ·) found).map row).reverse := by
            rw [← reverse_byRank_neg, List.map_reverse]
    rw [hback, List.rtake_eq_reverse_take_reverse, List.reverse_reverse, htail, ← List.map_take,
      List.map_reverse]

end Directions

theorem planRead_tail (config : Config) (range : TimeRange) (n : Nat) :
    planRead config range [.tail n] = .ok ⟨.backward
      (.start config.indices range config.pageOptions none .desc (some n)), []⟩ := rfl

/-- The rows of a tail are the last of a read of all rows, if those of one millisecond are put
backwards there. So they have the same times, and where no two rows share a millisecond they are the
same. -/
theorem planRead_tail_rows {memory : MemoryStore} {session session' : Session ScriptedStore}
    {config : Config} {range : TimeRange} (h : config.Reads memory range)
    (hsession : session.Answers memory) (hsession' : session'.Answers memory) (n : Nat) :
    ∃ whole tail, planRead config range [] = .ok ⟨whole, []⟩ ∧
      planRead config range [.tail n] = .ok ⟨tail, []⟩ ∧
      let all := (whole.run ScriptedStore.store none session).1
      let last := (tail.run ScriptedStore.store none session').1
      all.error = none → last.error = none →
        let rows := all.batches.flatten
        last.batches.flatten = (byRank Row.tick rows.reverse).rtake n ∧
          last.batches.flatten.map Row.tick = (rows.map Row.tick).rtake n ∧
          (rows.Pairwise (fun a b => a.tick ≠ b.tick) → last.batches.flatten = rows.rtake n) := by
  refine ⟨_, _, planRead_nil config range, planRead_tail config range n, ?_⟩
  intro all last hall hlast rows
  obtain ⟨hordered, hlast⟩ := h.run_backward_forward hsession hsession' n hall hlast
  refine ⟨hlast, ?_, fun hapart => ?_⟩
  · rw [hlast, List.rtake, List.map_drop, map_rank_byRank_reverse hordered, List.rtake,
      (perm_byRank Row.tick rows.reverse).length_eq, List.length_reverse, List.length_map]
  · have hascending : rows.Pairwise fun a b => a.tick < b.tick := by
      refine (hordered.and hapart).imp fun ⟨hle, hne⟩ => ?_
      omega
    rw [hlast, byRank_reverse_of_apart hascending]

/-- The tail of three documents at three milliseconds, read in pages of two. -/
theorem planRead_tail_rows_apart :
    let documents : List Members := [
      [("at", .text "2024-05-01T12:00:00+02:00"), ("n", .nat 1)],
      [("at", .text "2024-05-01T10:00:00.001Z"), ("n", .nat 2)],
      [("at", .text "2024-05-01T09:59:59.9999Z"), ("n", .nat 3)]]
    let memory : MemoryStore := ⟨[("logs", documents)], 10⟩
    let config : Config := { Config.ofUrl "http://store" with timeField := "at", fetchSize := 2 }
    let range : TimeRange := ⟨.utc 1714550000000000000, .utc 1714560000000000000⟩
    let session : Session ScriptedStore := ⟨⟨memory, [], []⟩, .zero⟩
    ∃ whole tail, planRead config range [] = .ok ⟨whole, []⟩ ∧
      planRead config range [.tail 2] = .ok ⟨tail, []⟩ ∧
      let all := (whole.run ScriptedStore.store none session).1
      let last := (tail.run ScriptedStore.store none session).1
      all.error = none ∧ last.error = none ∧
        last.batches.flatten = all.batches.flatten.rtake 2 := by
  intro documents memory config range session
  have hdocuments : memory.searched config.indices = documents := by cbv
  have hreads : config.Reads memory range := by
    refine ⟨?_, ⟨⟨by decide +kernel, by decide +kernel, by decide⟩,
      ⟨by decide +kernel, by decide +kernel, by decide⟩⟩, by decide, by decide, by decide⟩
    rw [hdocuments]
    intro document hmem
    simp only [documents, List.mem_cons, List.not_mem_nil, or_false] at hmem
    rcases hmem with rfl | rfl | rfl
    · exact .inr ⟨_, ⟨1714557600000000000, 120⟩, rfl, by decide +kernel⟩
    · exact .inr ⟨_, ⟨1714557600001000000, 0⟩, rfl, by decide +kernel⟩
    · exact .inr ⟨_, ⟨1714557599999900000, 0⟩, rfl, by decide +kernel⟩
  obtain ⟨whole, tail, hwhole, htail, hrows⟩ :=
    @planRead_tail_rows memory session session config range hreads ⟨rfl, rfl⟩ ⟨rfl, rfl⟩ 2
  rw [planRead_nil] at hwhole
  rw [planRead_tail] at htail
  cases hwhole
  cases htail
  refine ⟨_, _, planRead_nil _ _, planRead_tail _ _ _, ?_⟩
  intro all last
  have hall : all.error = none := by
    subst all session range config memory documents
    cbv
  have hlast : last.error = none := by
    subst last session range config memory documents
    cbv
  have hticks : all.batches.flatten.map Row.tick =
      [1714557599999000000, 1714557600000000000, 1714557600001000000] := by
    subst all session range config memory documents
    cbv
  have hapart : (all.batches.flatten.map Row.tick).Pairwise (· ≠ ·) := by
    rw [hticks]
    decide
  exact ⟨hall, hlast, (hrows hall hlast).2.2 (List.pairwise_map.mp hapart)⟩

/-- Of two rows of one millisecond a tail of one is the first. And where a range starts before the
year 0, which is written as a number of seconds, documents before that start are read as well, but
not by a tail that has moved its end before them. -/
theorem planRead_tail_rows_moved :
    let config : Config := { Config.ofUrl "http://store" with indices := ["logs"], fetchSize := 2 }
    let ids (steps : List Step) (range : TimeRange) (documents : List Members) :
        Option (List Nat) := do
      let plan ← (planRead config range steps).toOption
      let stream := (plan.reading.run ScriptedStore.store none
        ⟨⟨⟨[("logs", documents)], 10000⟩, [], []⟩, .zero⟩).1
      guard stream.error.isNone
      stream.batches.flatten.mapM fun row => (Members.get? "id" row.log).bind Json.unsigned?
    let tied : List Members := [
      [("@timestamp", .text "2024-01-01T00:00:10Z"), ("id", .nat 1)],
      [("@timestamp", .text "2024-01-01T00:00:10Z"), ("id", .nat 2)]]
    let early : List Members := [
      [("@timestamp", .text "0000-01-01T00:00:00+23:00"), ("id", .nat 1)],
      [("@timestamp", .text "0000-01-01T00:00:01+23:00"), ("id", .nat 2)],
      [("@timestamp", .text "2024-01-01T00:00:00Z"), ("id", .nat 3)]]
    let day : TimeRange := ⟨.utc 1704067200000000000, .utc 1704153600000000000⟩
    let ages : TimeRange := ⟨.utc (-62167262400000000000), .utc 1704153600000000000⟩
    (∃ all last, ids [] day tied = some all ∧ ids [.tail 1] day tied = some last ∧
      last ≠ all.rtake 1) ∧
    ∃ all last, ids [] ages early = some all ∧ ids [.tail 3] ages early = some last ∧
      last ≠ all.rtake 3 := by
  refine ⟨⟨[1, 2], [1], ?_, ?_, by decide⟩, [1, 2, 3], [3], ?_, ?_, by decide⟩
  · cbv
  · cbv
  · cbv
  · cbv

end Sluice
