import Mathlib
import Sluice.Plan
import Sluice.Proofs.AnsweredCounts
import Sluice.Proofs.WindowTurns

/-!
Counts that a read takes over. A count runs in the store window by window, and its rows are the exact
numbers of the documents in the windows, with each group apart where the count is grouped.
-/
namespace Sluice

open Grouping

/-! ## Rows of counts -/

section Rows

variable {target : String} {grouping : List String} {window : Moment × Moment} {count : Nat}
  {values : List Json}

end Rows

namespace Aggregator

variable {memory : MemoryStore} {a : Aggregator} {target : String}

end Aggregator

/-! ## Pushed counts -/

/-- A reduce step of one count that a read takes over, as `d`, over times from the epoch on. -/
structure Reduce.PushedCount (memory : MemoryStore) (config : Config) (range : TimeRange)
    (filter : Option Json) (target : String) (r : Reduce) (d : Descriptor) : Prop
    extends r.Pushed memory config range filter d where
  count : r.exprs.mapM ReduceExpr.toSpec? = some [⟨target, .count, none⟩]
  width_fits : ∀ n, r.every = some (.millis n) → Word.FitsSigned n

/-- The documents of a range that a count is over. -/
def Config.counted (config : Config) (memory : MemoryStore) (filter : Option Json)
    (range : TimeRange) : List Members :=
  selected config.timeField range filter (memory.searched config.indices)

namespace Reduce.PushedCount

variable {memory : MemoryStore} {config : Config} {range : TimeRange} {filter : Option Json}
  {target : String} {r : Reduce} {d : Descriptor} {boundaries : List Moment}

theorem counts (h : r.PushedCount memory config range filter target d) :
    d.Counts config.timeField target config.sizes.default ∧ d.grouping = r.groupBy ∧
      d.every = r.every ∧ d.phase = r.phase :=
  Plan.descriptor?_count h.count h.plan

/-- A step whose windows have no fixed width is not taken over. -/
theorem fixed (h : r.PushedCount memory config range filter target d) :
    ∀ width ∈ r.every, width.Fixed := by
  intro width hwidth
  obtain ⟨hcounts, -, hevery, -⟩ := h.counts
  obtain ⟨leaf, hleaf, -⟩ := hcounts.tree
  rw [hevery, Option.mem_def.mp hwidth] at hleaf
  cases hleaf with
  | @millis n offset hpos _ => exact ⟨n, rfl, hpos, h.width_fits n hwidth⟩

theorem counting (h : r.PushedCount memory config range filter target d)
    (hboundaries : Windows.boundaries range r.every r.phase = .ok boundaries)
    (hnames : ∀ field ∈ r.groupBy, field ∉ Result.bucketKeys)
    (hpresent : Present r.groupBy (config.counted memory filter range))
    (hfits : ∀ window ∈ boundaries.zip boundaries.tail, Fits config.sizes.default r.groupBy
      (config.counted memory filter (Windows.clip range window))) :
    (aggregator config range filter d boundaries).Counting memory target := by
  obtain ⟨hcounts, hgrouping, hevery, hphase⟩ := h.counts
  have hplaced : (aggregator config range filter d boundaries).Placed memory :=
    h.placed (fun width hwidth => h.fixed width (hevery ▸ hwidth))
      (by rw [hevery, hphase, hboundaries])
  exact { hplaced with
    descriptor := hcounts
    size_lt := h.size_lt
    names := by
      intro field hfield
      exact hnames field (hgrouping ▸ hfield)
    present := by
      intro window _ document hdocument field hfield
      exact hpresent document (Windows.selected_clip_subset window hdocument) field
        (hgrouping ▸ hfield)
    fits := by
      intro window hmem
      change Fits _ d.grouping _
      rw [hgrouping]
      exact hfits window hmem }

end Reduce.PushedCount
end Sluice
