import Sluice.Aggregator
import Sluice.Proofs.Answers

/-!
What a window comes to, search by search. A search that fails for a field that is grouped by is
followed by one without the field, and any other is the last.
-/
namespace Sluice

namespace Descriptor

variable {d fewer : Descriptor} {sizes : BucketSizes} {field : String}

theorem exists_removeField? (h : field ∈ d.grouping) (sizes : BucketSizes) :
    ∃ fewer, d.removeField? field sizes = some fewer := ⟨_, if_pos h⟩

theorem mem_grouping_of_removeField? (h : d.removeField? field sizes = some fewer) :
    field ∈ d.grouping := by
  rw [removeField?] at h
  split at h
  · assumption
  · cases h

end Descriptor

namespace Aggregator

variable {σ : Type} {a : Aggregator} {store : Store σ} {window : TimeRange} {d : Descriptor}
  {session : Session σ} {out : Except ReadError (List Members × Descriptor) × Session σ}

/-- One search for a window, and the rows in its answer. -/
def tryWindow (a : Aggregator) (store : Store σ) (window : TimeRange) (d : Descriptor)
    (session : Session σ) : Except ReadError (List Members) × Session σ :=
  let out := store.searchOrEmpty .aggregateBucket (a.request window d.tree) session
  (out.1.bind (rowsOf d), out.2)

/-- What a window comes to when it is searched with a descriptor first. -/
inductive Searched (a : Aggregator) (store : Store σ) (window : TimeRange) :
    Descriptor → Session σ → Except ReadError (List Members × Descriptor) × Session σ → Prop where
  | rows {d : Descriptor} {session session' : Session σ} {rows : List Members}
      (reply : a.tryWindow store window d session = (.ok rows, session')) :
      Searched a store window d session (.ok (rows, d), session')
  | failed {d : Descriptor} {session session' : Session σ} {e : ReadError}
      (reply : a.tryWindow store window d session = (.error e, session'))
      (known : ∀ field, e.unknownField? = some field → field ∉ d.grouping) :
      Searched a store window d session (.error e, session')
  | again {d fewer : Descriptor} {session session' : Session σ} {e : ReadError} {field : String}
      {out : Except ReadError (List Members × Descriptor) × Session σ}
      (reply : a.tryWindow store window d session = (.error e, session'))
      (unknown : e.unknownField? = some field)
      (removed : d.removeField? field a.options.sizes = some fewer)
      (rest : Searched a store window fewer (session'.add .fieldRemovals 1) out) :
      Searched a store window d session out

theorem fetchWindow_tryWindow (a : Aggregator) (store : Store σ) (window : TimeRange)
    (d : Descriptor) (session : Session σ) :
    a.fetchWindow store window d session =
      match a.tryWindow store window d session with
      | (.ok rows, session') => (.ok (rows, d), session')
      | (.error e, session') =>
        match e.unknownField? with
        | none => (.error e, session')
        | some field =>
          match d.removeField? field a.options.sizes with
          | none => (.error e, session')
          | some fewer => a.fetchWindow store window fewer (session'.add .fieldRemovals 1) := by
  rw [fetchWindow, tryWindow]
  generalize store.searchOrEmpty .aggregateBucket (a.request window d.tree) session = out
  dsimp only
  cases out.1.bind (rowsOf d) with
  | ok rows => rfl
  | error e =>
      dsimp only
      cases e.unknownField? with
      | none => rfl
      | some field =>
          dsimp only
          cases d.removeField? field a.options.sizes with
          | none => rfl
          | some fewer => rfl

theorem searched (a : Aggregator) (store : Store σ) (window : TimeRange) (d : Descriptor)
    (session : Session σ) :
    Searched a store window d session (a.fetchWindow store window d session) := by
  induction hn : d.grouping.length using Nat.strongRecOn generalizing d session with
  | ind n ih =>
      rw [fetchWindow_tryWindow]
      split
      · rename_i hreply
        exact .rows hreply
      · rename_i hreply
        split
        · rename_i hunknown
          exact .failed hreply (by simp [hunknown])
        · rename_i hunknown
          split
          · rename_i hkept
            refine .failed hreply fun name hname hmem => ?_
            cases hunknown.symm.trans hname
            obtain ⟨fewer, hfewer⟩ := Descriptor.exists_removeField? hmem a.options.sizes
            cases hkept.symm.trans hfewer
          · rename_i hfewer
            exact .again hreply hunknown hfewer
              (ih _ (hn ▸ Descriptor.length_grouping_of_removeField? hfewer) _ _ rfl)

theorem Searched.fetchWindow_eq (h : Searched a store window d session out) :
    a.fetchWindow store window d session = out := by
  induction h with
  | rows reply => rw [fetchWindow_tryWindow, reply]
  | failed reply known =>
      rw [fetchWindow_tryWindow, reply]
      dsimp only
      split
      · rfl
      · rename_i hunknown
        split
        · rfl
        · rename_i hfewer
          exact absurd (Descriptor.mem_grouping_of_removeField? hfewer) (known _ hunknown)
  | again reply unknown removed _ ih =>
      rw [fetchWindow_tryWindow, reply]
      simp only [unknown, removed, ih]

/-! ## Runs of searches -/

/-- Searches that are answered alike from related sessions come to the same, in related sessions. -/
theorem Searched.simulates {τ : Type} {b : Aggregator} {other : Store τ}
    (h : Searched a store window d session out) (R : Session σ → Session τ → Prop)
    (hsizes : b.options.sizes = a.options.sizes)
    (htry : ∀ d s t, R s t → ∃ t',
      b.tryWindow other window d t = ((a.tryWindow store window d s).1, t') ∧
        R (a.tryWindow store window d s).2 t')
    (hadd : ∀ s t, R s t → R (s.add .fieldRemovals 1) (t.add .fieldRemovals 1))
    {t : Session τ} (hstart : R session t) :
    ∃ t', Searched b other window d t (out.1, t') ∧ R out.2 t' := by
  induction h generalizing t with
  | rows reply =>
      obtain ⟨t', htwin, hafter⟩ := htry _ _ _ hstart
      rw [reply] at htwin hafter
      exact ⟨t', .rows htwin, hafter⟩
  | failed reply known =>
      obtain ⟨t', htwin, hafter⟩ := htry _ _ _ hstart
      rw [reply] at htwin hafter
      exact ⟨t', .failed htwin known, hafter⟩
  | again reply unknown removed _ ih =>
      obtain ⟨t', htwin, hafter⟩ := htry _ _ _ hstart
      rw [reply] at htwin hafter
      obtain ⟨t', hrest, hend⟩ := ih (hadd _ _ hafter)
      exact ⟨t', .again htwin unknown (hsizes ▸ removed) hrest, hend⟩

/-- A search that fails for no field that is grouped by settles the window. -/
theorem fetchWindow_of_known (h : ∀ e field, (a.tryWindow store window d session).1 = .error e →
    e.unknownField? = some field → field ∉ d.grouping) :
    a.fetchWindow store window d session =
      ((a.tryWindow store window d session).1.map (·, d),
        (a.tryWindow store window d session).2) := by
  cases htry : a.tryWindow store window d session with
  | mk rows session' =>
      rw [htry] at h
      cases rows with
      | ok rows => exact (Searched.rows htry).fetchWindow_eq
      | error e => exact (Searched.failed htry fun field => h e field rfl).fetchWindow_eq

/-! ## Searches of a memory -/

theorem tryWindow_answer {memory : MemoryStore} {session : Session ScriptedStore}
    (h : session.Answers memory) (a : Aggregator) (window : TimeRange) (d : Descriptor) :
    ∃ session' : Session ScriptedStore, session'.Answers memory ∧
      a.tryWindow ScriptedStore.store window d session =
        ((memory.answer (a.request window d.tree)).bind (rowsOf d), session') := by
  obtain ⟨session', hsession', hsearch⟩ :=
    MemoryStore.searchOrEmpty_answer h .aggregateBucket (a.request window d.tree)
  exact ⟨session', hsession', by rw [tryWindow, hsearch]⟩

theorem answer_of_reply {memory : MemoryStore} {session session' : Session ScriptedStore}
    {rows : Except ReadError (List Members)} (h : session.Answers memory)
    (reply : a.tryWindow ScriptedStore.store window d session = (rows, session')) :
    rows = (memory.answer (a.request window d.tree)).bind (rowsOf d) ∧
      session'.Answers memory := by
  obtain ⟨after, hafter, htry⟩ := tryWindow_answer h a window d
  obtain ⟨hrows, rfl⟩ := Prod.mk.inj (reply.symm.trans htry)
  exact ⟨hrows, hafter⟩

end Aggregator
end Sluice
