import Sluice.Proofs.Answers
import Sluice.Proofs.WindowStreams

/-!
How many windows of a reduction are searched at once. Fields that a window loses are lost for later
batches only, so that the number shows where windows lose different fields; where those with rows
all lose the same, or none, it does not.
-/
namespace Sluice.Aggregator

variable {memory : MemoryStore} {a b : Aggregator} {session : Session ScriptedStore}
  {window : Moment × Moment} {d used final : Descriptor} {logs : List Members}

/-! ## Windows of a memory -/

/-- A memory answers alike whatever was asked before. -/
theorem fetchWindow_answers {s t : Session ScriptedStore} (hs : s.Answers memory)
    (ht : t.Answers memory) (a : Aggregator) (window : TimeRange) (d : Descriptor) :
    (a.fetchWindow ScriptedStore.store window d s).1 =
        (a.fetchWindow ScriptedStore.store window d t).1 ∧
      (a.fetchWindow ScriptedStore.store window d s).2.Answers memory := by
  obtain ⟨t', htwin, hafter, -⟩ := (a.searched ScriptedStore.store window d s).simulates
    (fun s t => s.Answers memory ∧ t.Answers memory) rfl
    (fun d s t ⟨hs, ht⟩ => by
      obtain ⟨s', hs', htry⟩ := tryWindow_answer hs a window d
      obtain ⟨t', ht', htwin⟩ := tryWindow_answer ht a window d
      rw [htry]
      exact ⟨t', htwin, hs', ht'⟩)
    (fun _ _ h => ⟨h.1.add .fieldRemovals 1, h.2.add .fieldRemovals 1⟩) ⟨hs, ht⟩
  rw [htwin.fetchWindow_eq]
  exact ⟨rfl, hafter⟩

/-- What a window comes to when it is searched with a descriptor first. -/
def yield (memory : MemoryStore) (a : Aggregator) (window : Moment × Moment) (d : Descriptor) :
    Except ReadError (List Members × Descriptor) :=
  (a.fetchWindow ScriptedStore.store (Windows.clip a.range window) d ⟨⟨memory, [], []⟩, .zero⟩).1

theorem fetchWindow_yield (h : session.Answers memory) (a : Aggregator)
    (window : Moment × Moment) (d : Descriptor) :
    (a.fetchWindow ScriptedStore.store (Windows.clip a.range window) d session).1 =
        a.yield memory window d ∧
      (a.fetchWindow ScriptedStore.store (Windows.clip a.range window) d session).2.Answers
        memory :=
  fetchWindow_answers h ⟨rfl, rfl⟩ a _ d

theorem Searched.yield_used
    {out : Except ReadError (List Members × Descriptor) × Session ScriptedStore}
    (hout : Searched a ScriptedStore.store (Windows.clip a.range window) d session out)
    (hsession : session.Answers memory) (h : out.1 = .ok (logs, used)) :
    a.yield memory window used = .ok (logs, used) := by
  induction hout with
  | rows reply =>
      cases h
      rw [← (fetchWindow_yield hsession a window _).1, (Searched.rows reply).fetchWindow_eq]
  | failed => cases h
  | again reply _ _ _ ih =>
      exact ih ((answer_of_reply hsession reply).2.add .fieldRemovals 1) h

/-- A window searched with the fields that it ended with has the same rows. -/
theorem yield_used (h : a.yield memory window d = .ok (logs, used)) :
    a.yield memory window used = .ok (logs, used) :=
  (a.searched ScriptedStore.store _ d _).yield_used ⟨rfl, rfl⟩ h

/-! ## Lost fields -/

/-- What is left of the descriptor once the fields that `final` lost are dropped. -/
def leftBy (a : Aggregator) (final : Descriptor) : Descriptor :=
  a.descriptor.without a.options.sizes final.emptyFields

/-- Windows that lose the same fields: whether they are searched with all group fields or with those
that are left first, some have no rows and lose none, and all others end with `final`. -/
def Settles (memory : MemoryStore) (a : Aggregator) (final : Descriptor) : Prop :=
  ∀ window ∈ a.windows,
    (∀ d, d = a.descriptor ∨ d = a.leftBy final → ∀ logs used,
      a.yield memory window d = .ok (logs, used) → logs = [] ∧ used = d) ∨
    (∀ d, d = a.descriptor ∨ d = a.leftBy final → ∀ logs used,
      a.yield memory window d = .ok (logs, used) → used = final)

/-- The rows of a window, searched with one of two descriptors first. -/
def rowsFor (memory : MemoryStore) (a : Aggregator) (final : Descriptor) (index : Nat) :
    List Members :=
  match a.windows[index]? with
  | none => []
  | some window =>
    match a.yield memory window a.descriptor, a.yield memory window (a.leftBy final) with
    | .ok (logs, _), _ => logs
    | .error _, .ok (logs, _) => logs
    | .error _, .error _ => []

theorem Settles.rowsFor (h : a.Settles memory final) {index : Nat}
    (hwindow : a.windows[index]? = some window) (hd : d = a.descriptor ∨ d = a.leftBy final)
    (hyield : a.yield memory window d = .ok (logs, used)) :
    logs = a.rowsFor memory final index := by
  have hsame : ∀ {d' logs' used'}, d' = a.descriptor ∨ d' = a.leftBy final →
      a.yield memory window d' = .ok (logs', used') → logs = logs' := by
    intro d' logs' used' hd' hyield'
    rcases h window (List.mem_of_getElem? hwindow) with hquiet | hfinal
    · rw [(hquiet d hd logs used hyield).1, (hquiet d' hd' logs' used' hyield').1]
    · obtain rfl := hfinal d hd logs used hyield
      obtain rfl := hfinal d' hd' logs' used' hyield'
      have htwice := (yield_used hyield).symm.trans (yield_used hyield')
      cases htwice
      rfl
  rw [Aggregator.rowsFor, hwindow]
  simp only
  split
  · rename_i hfirst
    exact hsame (.inl rfl) hfirst
  · rename_i hsecond
    exact hsame (.inr rfl) hsecond
  · rename_i hfirst hsecond
    rcases hd with rfl | rfl
    · rw [hyield] at hfirst
      cases hfirst
    · rw [hyield] at hsecond
      cases hsecond

theorem Settles.conforms (h : a.Settles memory final) {index : Nat}
    (hwindow : a.windows[index]? = some window) (hd : d = a.descriptor ∨ d = a.leftBy final)
    {answer : List Members × Descriptor} (hyield : a.yield memory window d = .ok answer) :
    a.Conforms (a.leftBy final) (a.rowsFor memory final) d index answer := by
  obtain ⟨logs, used⟩ := answer
  refine ⟨h.rowsFor hwindow hd hyield, fun c hc => ?_⟩
  rcases h window (List.mem_of_getElem? hwindow) with hquiet | hfinal
  · obtain ⟨hnone, rfl⟩ := hquiet d hd logs used hyield
    refine .inr ⟨hnone, ?_⟩
    rcases hc with rfl | rfl
    · exact Descriptor.without_self _ _
    · rcases hd with rfl | rfl
      · exact Descriptor.without_of_lacks fun field hfield =>
          .inl (Descriptor.mem_emptyFields_without _ _ hfield)
      · exact Descriptor.without_self _ _
  · obtain rfl := hfinal d hd logs used hyield
    have hleft : c = a.descriptor ∨ c = a.leftBy used := by
      rcases hc with rfl | hc
      · exact hd
      · exact .inr hc
    refine .inl ?_
    rcases hleft with rfl | rfl
    · rfl
    · exact Descriptor.without_without _ _ _

theorem Settles.feeds (h : a.Settles memory final) :
    Feeds ScriptedStore.store a (a.leftBy final) (a.rowsFor memory final)
      fun _ session => session.Answers memory where
  add := fun hsession counter n => hsession.add counter n
  next := fun _ hsession d _ => (fetchWindow_yield hsession a _ d).2
  conforms := fun hwindow hsession d hd answer hanswer => by
    rw [(fetchWindow_yield hsession a _ d).1] at hanswer
    exact h.conforms hwindow hd hanswer

/-! ## Two numbers of windows at once -/

/-- The same reduction, with another number of windows at once. -/
structure Twin (b a : Aggregator) : Prop where
  indices : b.indices = a.indices
  filter : b.filter = a.filter
  timeField : b.options.timeField = a.options.timeField
  sizes : b.options.sizes = a.options.sizes
  descriptor : b.descriptor = a.descriptor
  range : b.range = a.range
  boundaries : b.boundaries = a.boundaries

theorem Twin.windows (h : b.Twin a) : b.windows = a.windows := by
  rw [Aggregator.windows, Aggregator.windows, h.boundaries]

theorem Twin.leftBy (h : b.Twin a) (final : Descriptor) : b.leftBy final = a.leftBy final := by
  rw [Aggregator.leftBy, Aggregator.leftBy, h.descriptor, h.sizes]

theorem Twin.yield (h : b.Twin a) (memory : MemoryStore) (window : Moment × Moment)
    (d : Descriptor) : b.yield memory window d = a.yield memory window d := by
  have hrequest : ∀ window tree, b.request window tree = a.request window tree := fun _ _ => by
    rw [request, request, h.indices, h.filter, h.timeField]
  rw [Aggregator.yield, Aggregator.yield, h.range, fetchWindow_congr hrequest h.sizes]

theorem Twin.rowsFor (h : b.Twin a) : b.rowsFor memory final = a.rowsFor memory final := by
  funext index
  rw [Aggregator.rowsFor, Aggregator.rowsFor, h.windows, h.descriptor, h.leftBy]
  simp only [h.yield]

end Sluice.Aggregator
