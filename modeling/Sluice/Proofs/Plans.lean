import Mathlib
import Sluice.Plan
import Sluice.Proofs.Outcomes
import Sluice.Proofs.Predicates

/-!
Plans mean what the steps they stand for mean, whatever the rows. A plan takes over the longest run
of steps from the front that a read can do, and planning never fails.
-/
namespace Sluice

/-! ## Limits -/

/-- The side of the rows that a limit keeps. -/
inductive Side where
  | front
  | back

namespace Side

def step : Side → Nat → Step
  | .front => .head
  | .back => .tail

def pushdown : Side → Nat → Pushdown
  | .front => .head
  | .back => .tail

def keep {α : Type} : Side → Nat → List α → List α
  | .front, limit, rows => rows.take limit
  | .back, limit, rows => rows.rtake limit

theorem keep_keep {α : Type} (side : Side) (limit n : Nat) (rows : List α) :
    side.keep n (side.keep limit rows) = side.keep (min limit n) rows := by
  cases side with
  | front => rw [keep, keep, keep, List.take_take, Nat.min_comm]
  | back =>
      simp only [keep, List.rtake_eq_reverse_take_reverse, List.reverse_reverse, List.take_take,
        Nat.min_comm]

end Side

/-! ## What steps mean -/

/-- What predicates and steps do with rows. A conjunction holds where both its sides do. -/
structure Interpretation (ρ : Type) where
  satisfies : Expr → ρ → Bool
  satisfies_and : ∀ lhs rhs row,
    satisfies (.binary .and lhs rhs) row = (satisfies lhs row && satisfies rhs row)
  reduce : Reduce → List ρ → List ρ
  other : String → List ρ → List ρ

namespace Interpretation

variable {ρ : Type} (I : Interpretation ρ)

def step : Step → List ρ → List ρ
  | .head limit, rows => rows.take limit
  | .tail limit, rows => rows.rtake limit
  | .reduce r, rows => I.reduce r rows
  | .filter predicate, rows => rows.filter (I.satisfies predicate)
  | .other name, rows => I.other name rows

def run (steps : List Step) (rows : List ρ) : List ρ :=
  steps.foldl (fun rows step => I.step step rows) rows

/-- What a plan does with rows: it filters them, and then limits them or runs the reduction that it
took over last. -/
def read (plan : Plan) (absorbed : List Step) (rows : List ρ) : List ρ :=
  let rows := rows.filter fun row => plan.filter.all (I.satisfies · row)
  match plan.pushdown with
  | .none => rows
  | .head limit => rows.take limit
  | .tail limit => rows.rtake limit
  | .reduce _ =>
    match absorbed.getLast? with
    | some (.reduce r) => I.reduce r rows
    | _ => rows

theorem run_append (steps more : List Step) (rows : List ρ) :
    I.run (steps ++ more) rows = I.run more (I.run steps rows) := List.foldl_append

theorem step_limit (side : Side) (limit : Nat) (rows : List ρ) :
    I.step (side.step limit) rows = side.keep limit rows := by
  cases side <;> rfl

theorem read_limit (filter : Option Expr) (side : Side) (limit : Nat) (absorbed : List Step)
    (rows : List ρ) : I.read ⟨filter, side.pushdown limit⟩ absorbed rows =
      side.keep limit (rows.filter fun row => filter.all (I.satisfies · row)) := by
  cases side <;> rfl

theorem run_limits (side : Side) (limit : Nat) (limits : List Nat) (rows : List ρ) :
    I.run ((limit :: limits).map side.step) rows = side.keep (limits.foldl min limit) rows := by
  induction limits generalizing limit with
  | nil => exact I.step_limit side limit rows
  | cons n limits ih =>
      have hmerge : I.step (side.step n) (I.step (side.step limit) rows) =
          I.step (side.step (min limit n)) rows := by
        rw [step_limit, step_limit, step_limit, side.keep_keep]
      rw [List.foldl_cons, ← ih (min limit n)]
      exact congrArg (I.run (limits.map side.step)) hmerge

/-- Stored documents, of which predicates hold as they do in a search. -/
def ofDocuments (reduce : Reduce → List Members → List Members)
    (other : String → List Members → List Members) : Interpretation Members where
  satisfies predicate document := predicate.holds document
  satisfies_and _ _ _ := rfl
  reduce := reduce
  other := other

end Interpretation

namespace Plan

/-- The predicate that all of some predicates make up, the first innermost. -/
def conjunction (predicates : List Expr) : Option Expr :=
  predicates.foldl (fun earlier predicate =>
    match earlier with
    | some earlier => some (.binary .and earlier predicate)
    | none => some predicate) none

theorem conjunction_concat (predicates : List Expr) (predicate : Expr) :
    conjunction (predicates ++ [predicate]) =
      match conjunction predicates with
      | some earlier => some (.binary .and earlier predicate)
      | none => some predicate := by
  rw [conjunction, List.foldl_append]
  rfl

theorem run_filters {ρ : Type} (I : Interpretation ρ) (predicates : List Expr) (rows : List ρ) :
    I.run (predicates.map .filter) rows =
      rows.filter fun row => (conjunction predicates).all (I.satisfies · row) := by
  induction predicates using List.reverseRecOn with
  | nil => exact (List.filter_eq_self.mpr fun _ _ => rfl).symm
  | append_singleton predicates predicate ih =>
      rw [List.map_append, I.run_append, ih, conjunction_concat]
      change List.filter (I.satisfies predicate) _ = _
      rw [List.filter_filter]
      refine List.filter_congr fun row _ => ?_
      cases conjunction predicates with
      | none => simp
      | some earlier => simp [I.satisfies_and, Bool.and_comm]

/-- Whether a store can be asked for each of some predicates. -/
def Compile (predicates : List Expr) : Prop :=
  ∀ predicate ∈ predicates, ∃ clause, predicate.clause none = .ok clause

theorem Compile.nil : Compile [] := nofun

theorem Compile.concat {predicates : List Expr} {predicate : Expr} {clause : Json}
    (h : Compile predicates) (hclause : predicate.clause none = .ok clause) :
    Compile (predicates ++ [predicate]) :=
  List.forall_mem_append.mpr ⟨h, List.forall_mem_singleton.mpr ⟨clause, hclause⟩⟩

/-- A store that can be asked for predicates can be asked for their conjunction. -/
theorem Compile.of_conjunction {predicates : List Expr} (h : Compile predicates) :
    ∀ predicate ∈ conjunction predicates, ∃ clause, predicate.clause none = .ok clause := by
  induction predicates using List.reverseRecOn with
  | nil => exact nofun
  | append_singleton predicates predicate ih =>
      obtain ⟨clause, hclause⟩ := h predicate (by simp)
      have hearlier := ih fun p hp => h p (List.mem_append_left _ hp)
      rw [conjunction_concat]
      intro merged hmerged
      cases hc : conjunction predicates with
      | none =>
          obtain rfl : predicate = merged := by simpa [hc] using hmerged
          exact ⟨clause, hclause⟩
      | some earlier =>
          obtain rfl : .binary .and earlier predicate = merged := by simpa [hc] using hmerged
          obtain ⟨first, hfirst⟩ := hearlier earlier hc
          exact ⟨_, by rw [Expr.clause, hfirst, hclause]; rfl⟩

/-! ## Steps that a read can do -/

/-- Steps that a read can take over together: filters with clauses, and then nothing, heads, tails
or one reduction that a store can run. -/
inductive Absorbable (options : Options) : List Step → Prop
  | done : Absorbable options []
  | heads (limit : Nat) (limits : List Nat) : Absorbable options ((limit :: limits).map .head)
  | tails (limit : Nat) (limits : List Nat) : Absorbable options ((limit :: limits).map .tail)
  | reduction {r : Reduce} {d : Descriptor} (h : descriptor? options r = .ok (some d)) :
      Absorbable options [.reduce r]
  | filter {predicate : Expr} {clause : Json} {steps : List Step}
      (hclause : predicate.clause none = .ok clause) (h : Absorbable options steps) :
      Absorbable options (.filter predicate :: steps)

namespace Absorbable

variable {options : Options} {steps : List Step}

theorem filters {predicates : List Expr} (hclauses : Compile predicates)
    (h : Absorbable options steps) : Absorbable options (predicates.map .filter ++ steps) := by
  induction predicates with
  | nil => exact h
  | cons predicate predicates ih =>
      obtain ⟨clause, hclause⟩ := hclauses predicate List.mem_cons_self
      exact .filter hclause (ih fun p hp => hclauses p (List.mem_cons_of_mem _ hp))

theorem limits (side : Side) (limit : Nat) (limits : List Nat) :
    Absorbable options ((limit :: limits).map side.step) := by
  cases side with
  | front => exact .heads limit limits
  | back => exact .tails limit limits

theorem of_filters {predicates : List Expr}
    (h : Absorbable options (predicates.map .filter ++ steps)) : Absorbable options steps := by
  induction predicates with
  | nil => exact h
  | cons predicate predicates ih =>
      cases h with
      | filter _ h => exact ih h

theorem front {front : List Step} (h : Absorbable options steps) (hfront : front <+: steps) :
    Absorbable options front := by
  induction h generalizing front with
  | done =>
      rw [List.prefix_nil.mp hfront]
      exact .done
  | heads | tails =>
      obtain ⟨taken, -, rfl⟩ := List.prefix_map_iff.mp hfront
      cases taken with
      | nil => exact .done
      | cons => constructor
  | reduction hd =>
      rcases List.prefix_cons_iff.mp hfront with rfl | ⟨rest, rfl, hrest⟩
      · exact .done
      · rw [List.prefix_nil.mp hrest]
        exact .reduction hd
  | filter hclause _ ih =>
      rcases List.prefix_cons_iff.mp hfront with rfl | ⟨rest, rfl, hrest⟩
      · exact .done
      · exact .filter hclause (ih hrest)

theorem of_limit {side : Side} {limit : Nat} (h : Absorbable options (side.step limit :: steps)) :
    ∀ step ∈ steps, ∃ limit, step = side.step limit := by
  obtain ⟨limits, rfl⟩ : ∃ limits : List Nat, steps = limits.map side.step := by
    cases side <;> cases h <;> exact ⟨_, rfl⟩
  intro step hstep
  obtain ⟨limit, -, rfl⟩ := List.mem_map.mp hstep
  exact ⟨limit, rfl⟩

theorem of_reduce {r : Reduce} (h : Absorbable options (.reduce r :: steps)) :
    steps = [] ∧ ∃ d, descriptor? options r = .ok (some d) := by
  cases h with
  | reduction hd => exact ⟨rfl, _, hd⟩

end Absorbable

/-! ## Planning never fails -/

theorem succeeds_bind {ε α β : Type} {x : Except ε α} {f : α → Except ε β}
    (hx : ∃ a, x = .ok a) (hf : ∀ a, ∃ b, f a = .ok b) : ∃ b, x >>= f = .ok b := by
  obtain ⟨a, rfl⟩ := hx
  exact hf a

theorem offsetMillis_millis (phase : Phase) (n : Int) :
    ∃ offset, phase.offsetMillis (.millis n) = .ok offset := by
  cases phase with
  | offset shift => exact ⟨_, rfl⟩
  | moment m =>
      -- the years of a bucket's start are checked as milliseconds, and never left by arithmetic
      have hfloor : (Interval.millis n).floor m 0 ≠ .error (.time .outOfYears) := by
        rw [Interval.floor]
        split
        · exact nofun
        · cases Moment.floorMillis? m.toMillis n 0 with
          | none => exact nofun
          | some start =>
              simp only [Moment.ofMillis]
              split <;> exact nofun
      rw [Phase.offsetMillis]
      split
      · exact ⟨_, rfl⟩
      · exact absurd ‹_› hfloor
      · exact ⟨_, rfl⟩

theorem histogram?_millis (timeField : String) (n : Int) (phase : Option Phase) (sub : Members) :
    ∃ level, Tree.histogram? timeField (.millis n) phase sub = .ok level := by
  simp only [Tree.histogram?]
  cases phase with
  | none => exact ⟨_, rfl⟩
  | some phase =>
      simp only
      split
      · exact ⟨_, rfl⟩
      · refine succeeds_bind (offsetMillis_millis phase n) fun offset => ?_
        cases offset <;> exact ⟨_, rfl⟩

theorem ofReduction?_millis {every : Option Interval}
    (hevery : every.any Interval.isCalendar = false) (grouping : List String)
    (specs : List ReducerSpec) (phase : Option Phase) (timeField : String) (sizes : BucketSizes) :
    ∃ tree, Tree.ofReduction? grouping specs every phase timeField sizes = .ok tree := by
  rw [Tree.ofReduction?]
  cases Tree.leaves? specs [] with
  | none => exact ⟨_, rfl⟩
  | some leaves =>
      match every with
      | none => exact ⟨_, rfl⟩
      | some (.millis n) =>
          exact succeeds_bind (histogram?_millis timeField n phase leaves) fun _ => ⟨_, rfl⟩
      | some (.months _) => cases hevery

/-- Windows of fixed width can be planned without leaving the supported years. -/
theorem descriptor?_eq_ok (options : Options) (r : Reduce) :
    ∃ d, descriptor? options r = .ok d := by
  simp only [descriptor?]
  split
  · exact ⟨_, rfl⟩
  · split
    · exact ⟨_, rfl⟩
    · split
      · exact ⟨_, rfl⟩
      · rename_i hplain
        have hevery : r.every.any Interval.isCalendar = false := by
          simp only [hasFixedWindows, Bool.or_eq_true, Bool.not_eq_eq_eq_not, Bool.not_true,
            not_or, Bool.not_eq_false, Bool.and_eq_true] at hplain
          exact hplain.2.1.1
        exact succeeds_bind (ofReduction?_millis hevery _ _ _ _ _) fun _ => ⟨_, rfl⟩

/-! ## Taking over steps -/

/-- A plan and the steps that it took over. -/
inductive Absorbed (options : Options) : List Step → Plan → Prop
  | filters {predicates : List Expr} (hclauses : Compile predicates) :
      Absorbed options (predicates.map .filter) ⟨conjunction predicates, .none⟩
  | limits {predicates : List Expr} (hclauses : Compile predicates) (side : Side) (limit : Nat)
      (limits : List Nat) :
      Absorbed options (predicates.map .filter ++ (limit :: limits).map side.step)
        ⟨conjunction predicates, side.pushdown (limits.foldl min limit)⟩
  | reduction {predicates : List Expr} (hclauses : Compile predicates) {r : Reduce}
      {d : Descriptor} (hd : descriptor? options r = .ok (some d)) :
      Absorbed options (predicates.map .filter ++ [.reduce r])
        ⟨conjunction predicates, .reduce d⟩

namespace Absorbed

variable {options : Options} {predicates : List Expr} {steps : List Step} {plan : Plan}

theorem absorbable (h : Absorbed options steps plan) : Absorbable options steps := by
  cases h with
  | @filters predicates hclauses =>
      rw [← List.append_nil (predicates.map Step.filter)]
      exact .filters hclauses .done
  | limits hclauses side limit limits => exact .filters hclauses (.limits side limit limits)
  | reduction hclauses hd => exact .filters hclauses (.reduction hd)

theorem clause (h : Absorbed options steps plan) :
    ∀ predicate ∈ plan.filter, ∃ clause, predicate.clause none = .ok clause := by
  cases h <;> exact Compile.of_conjunction ‹_›

/-- A reduction that is pushed is the last step taken over. -/
theorem getLast?_reduce {d : Descriptor} (h : Absorbed options steps plan)
    (hd : plan.pushdown = .reduce d) :
    ∃ r, steps.getLast? = some (.reduce r) ∧ descriptor? options r = .ok (some d) := by
  cases h with
  | filters => cases hd
  | limits _ side => cases side <;> cases hd
  | reduction _ h =>
      cases hd
      exact ⟨_, List.getLast?_concat, h⟩

theorem read_eq {ρ : Type} (I : Interpretation ρ) (rows : List ρ)
    (h : Absorbed options steps plan) : I.read plan steps rows = I.run steps rows := by
  cases h with
  | filters => exact (run_filters I _ rows).symm
  | limits => rw [I.run_append, run_filters, I.run_limits, I.read_limit]
  | reduction =>
      rw [I.run_append, run_filters, Interpretation.read, List.getLast?_concat]
      rfl

/-- What one more step comes to: it is taken over, or a read cannot do it behind the others. -/
def Continues (options : Options) (steps : List Step) (plan : Plan) (step : Step) : Prop :=
  (∃ next, push options plan step = .ok (some next) ∧ Absorbed options (steps ++ [step]) next) ∨
    (push options plan step = .ok none ∧ ¬ Absorbable options (steps ++ [step]))

theorem push_filters (hclauses : Compile predicates) (step : Step) :
    Continues options (predicates.map .filter) ⟨conjunction predicates, .none⟩ step := by
  cases step with
  | filter predicate =>
      cases hclause : predicate.clause none with
      | error cause =>
          refine .inr ⟨by simp only [push, hclause]; rfl, fun h => ?_⟩
          cases h.of_filters with
          | filter h _ => rw [hclause] at h; cases h
      | ok clause =>
          have htaken := @Absorbed.filters options _ (hclauses.concat hclause)
          rw [List.map_append, List.map_singleton] at htaken
          refine .inl ⟨_, ?_, htaken⟩
          simp only [push, hclause, conjunction_concat]
          cases conjunction predicates <;> rfl
  | head limit => exact .inl ⟨_, rfl, .limits hclauses .front limit []⟩
  | tail limit => exact .inl ⟨_, rfl, .limits hclauses .back limit []⟩
  | reduce r =>
      obtain ⟨d, hd⟩ := descriptor?_eq_ok options r
      cases d with
      | some d => exact .inl ⟨_, by simp only [push, hd]; rfl, .reduction hclauses hd⟩
      | none =>
          refine .inr ⟨by simp only [push, hd]; rfl, fun h => ?_⟩
          obtain ⟨-, d, h⟩ := h.of_filters.of_reduce
          rw [hd] at h
          cases h
  | other name => exact .inr ⟨rfl, fun h => by cases h.of_filters⟩

theorem push_limit (filter : Option Expr) (side : Side) (earlier limit : Nat) :
    Plan.push options ⟨filter, side.pushdown earlier⟩ (side.step limit) =
      .ok (some ⟨filter, side.pushdown (min earlier limit)⟩) := by
  cases side <;> rfl

theorem push_not_limit {side : Side} {step : Step} (hstep : ∀ limit, step ≠ side.step limit)
    (filter : Option Expr) (earlier : Nat) :
    Plan.push options ⟨filter, side.pushdown earlier⟩ step = .ok none := by
  cases side with
  | front =>
      cases step with
      | head limit => exact absurd rfl (hstep limit)
      | _ => rfl
  | back =>
      cases step with
      | tail limit => exact absurd rfl (hstep limit)
      | _ => rfl

theorem push_limits (hclauses : Compile predicates) (side : Side) (limit : Nat)
    (limits : List Nat) (step : Step) :
    Continues options (predicates.map .filter ++ (limit :: limits).map side.step)
      ⟨conjunction predicates, side.pushdown (limits.foldl min limit)⟩ step := by
  rw [Continues, List.append_assoc]
  by_cases hstep : ∃ last, step = side.step last
  · obtain ⟨last, rfl⟩ := hstep
    have htaken := @Absorbed.limits options _ hclauses side limit (limits ++ [last])
    rw [← List.cons_append, List.map_append, List.foldl_append] at htaken
    exact .inl ⟨_, push_limit _ side _ last, htaken⟩
  · refine .inr ⟨push_not_limit (not_exists.mp hstep) _ _, fun h => hstep ?_⟩
    exact h.of_filters.of_limit step (List.mem_append_right _ List.mem_cons_self)

theorem push (h : Absorbed options steps plan) (step : Step) :
    Continues options steps plan step := by
  cases h with
  | filters hclauses => exact push_filters hclauses step
  | limits hclauses side limit limits => exact push_limits hclauses side limit limits step
  | reduction hclauses hd =>
      rw [Continues, List.append_assoc]
      refine .inr ⟨by cases step <;> rfl, fun h => ?_⟩
      cases h.of_filters.of_reduce.1

end Absorbed

/-- Planning `steps` behind a front that is taken over takes over the longest front of them that a
read can do behind it. -/
theorem absorb_absorbed {options : Options} {front : List Step} {plan : Plan}
    (h : Absorbed options front plan) (steps : List Step) :
    ∃ plan' absorbed remaining, absorb options plan steps = .ok (plan', remaining) ∧
      steps = absorbed ++ remaining ∧ Absorbed options (front ++ absorbed) plan' ∧
      ∀ more, more <+: steps → Absorbable options (front ++ more) → more <+: absorbed := by
  induction steps generalizing front plan with
  | nil => exact ⟨plan, [], [], rfl, rfl, by rwa [List.append_nil], fun _ hmore _ => hmore⟩
  | cons step rest ih =>
      rcases h.push step with ⟨next, hpush, hnext⟩ | ⟨hpush, hstop⟩
      · obtain ⟨plan', absorbed, remaining, habsorb, rfl, htaken, hlongest⟩ := ih hnext
        refine ⟨plan', step :: absorbed, remaining, ?_, rfl, by rwa [List.append_cons], ?_⟩
        · rw [absorb, hpush]
          exact habsorb
        · intro more hmore hdone
          rcases List.prefix_cons_iff.mp hmore with rfl | ⟨more, rfl, hrest⟩
          · exact List.nil_prefix
          · rw [List.append_cons] at hdone
            exact (List.prefix_cons_inj step).mpr (hlongest more hrest hdone)
      · refine ⟨plan, [], step :: rest, ?_, rfl, by rwa [List.append_nil], ?_⟩
        · rw [absorb, hpush]
          rfl
        · intro more hmore hdone
          rcases List.prefix_cons_iff.mp hmore with rfl | ⟨more, rfl, -⟩
          · exact List.nil_prefix
          · rw [List.append_cons] at hdone
            exact absurd (hdone.front (List.prefix_append _ _)) hstop

/-- A plan stands for the longest front of the steps that a read can do: running it and then the
steps that remain is running all the steps, whatever the rows are. -/
theorem ofSteps_longest (options : Options) (steps : List Step) :
    ∃ plan absorbed remaining, ofSteps options steps = .ok (plan, remaining) ∧
      steps = absorbed ++ remaining ∧ Absorbable options absorbed ∧
      (∀ front, front <+: steps → Absorbable options front → front <+: absorbed) ∧
      (∀ predicate ∈ plan.filter, ∃ clause, predicate.clause none = .ok clause) ∧
      (∀ d, plan.pushdown = .reduce d →
        ∃ r, absorbed.getLast? = some (.reduce r) ∧ descriptor? options r = .ok (some d)) ∧
      ∀ {ρ : Type} (I : Interpretation ρ) (rows : List ρ),
        I.run remaining (I.read plan absorbed rows) = I.run steps rows := by
  obtain ⟨plan, absorbed, remaining, hplan, rfl, habsorbed, hlongest⟩ :=
    absorb_absorbed (@Absorbed.filters options _ .nil) steps
  rw [List.map_nil, List.nil_append] at habsorbed
  refine ⟨plan, absorbed, remaining, hplan, rfl, habsorbed.absorbable, hlongest, habsorbed.clause,
    fun _ hd => habsorbed.getLast?_reduce hd, fun I rows => ?_⟩
  rw [habsorbed.read_eq I rows, I.run_append]

/-- Two filters and two heads are taken over, as one filter and the lower limit. The tail behind them
is left, and so is the count behind the tail. -/
theorem ofSteps_longest_documents :
    let I := Interpretation.ofDocuments (fun _ rows => [[("total", .nat rows.length)]])
      fun _ rows => rows.reverse
    let pending : Expr := .binary .ne (.field "state") (.literal (.text "done"))
    let hosted : Expr := .binary .isIn (.field "host") (.literal (.list [.text "a", .text "b"]))
    let count : Reduce := ⟨[⟨.field "total", "count", []⟩], [], none, none, none⟩
    let front : List Step := [.filter pending, .filter hosted, .head 3, .head 2]
    let rest : List Step := [.tail 1, .other "reverse", .reduce count]
    let rows : List Members := [[("host", .text "c")], [("host", .text "a"), ("state", .text "done")],
      [("host", .text "b")], [("state", .text "new"), ("host", .text "a")], [("host", .text "a")]]
    let plan : Plan := ⟨some (.binary .and pending hosted), .head 2⟩
    ofSteps .standard (front ++ rest) = .ok (plan, rest) ∧
      Absorbable .standard front ∧
      (∀ more, more <+: front ++ rest → Absorbable .standard more → more <+: front) ∧
      I.read plan front rows =
        [[("host", .text "b")], [("state", .text "new"), ("host", .text "a")]] ∧
      I.run rest (I.read plan front rows) = I.run (front ++ rest) rows ∧
      I.run (front ++ rest) rows = [[("total", .nat 1)]] := by
  intro I pending hosted count front rest rows plan
  have hplan : ofSteps .standard (front ++ rest) = .ok (plan, rest) := by cbv
  have hread : I.read plan front rows =
      [[("host", .text "b")], [("state", .text "new"), ("host", .text "a")]] := by cbv
  obtain ⟨plan', absorbed, remaining, hsteps, heq, habsorbable, hlongest, -, -, hrun⟩ :=
    ofSteps_longest .standard (front ++ rest)
  cases hplan.symm.trans hsteps
  obtain rfl : front = absorbed := List.append_cancel_right heq
  refine ⟨hplan, habsorbable, hlongest, hread, hrun I rows, ?_⟩
  rw [← hrun I rows, hread]
  rfl

end Plan
end Sluice
