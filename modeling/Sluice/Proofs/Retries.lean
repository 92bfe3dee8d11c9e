import Mathlib
import Sluice.Proofs.LostFields
import Sluice.Proofs.WindowSearches
import Sluice.Store.Scripted

/-!
Windows that are fetched again. A fetch that fails leaves its windows to the next one, and what it
took in before the failure stays: windows with rows and dropped fields show in the aggregator behind
it, and where there were none of them the fetch might as well not have been tried.
-/
namespace Sluice

/-- Whether a counter counts rows, and not searches. -/
def Counter.ofRows : Counter → Bool
  | .fetchedRows _ | .backfilledRows => true
  | _ => false

/-! ## Sessions that differ in their counters -/

namespace Session

variable {σ : Type} {gap : Counter → Int} {s t : Session σ}

/-- Two sessions on one state of a store, with each counter apart by its gap. -/
structure Apart (gap : Counter → Int) (s t : Session σ) : Prop where
  store : s.store = t.store
  counters : ∀ counter, (s.counters.count counter : Int) = t.counters.count counter + gap counter

theorem Apart.withStore (h : s.Apart gap t) (state : σ) :
    ({ s with store := state } : Session σ).Apart gap { t with store := state } :=
  ⟨rfl, h.counters⟩

theorem Apart.add (h : s.Apart gap t) (counter : Counter) (n : Nat) :
    (s.add counter n).Apart gap (t.add counter n) where
  store := h.store
  counters := fun other => by
    have hcount := h.counters other
    simp only [Session.add, Counters.count_add]
    omega

theorem count_add_of_ne {counter other : Counter} (h : other ≠ counter) (n : Nat) :
    (s.add counter n).counters.count other = s.counters.count other := by
  rw [Session.add, Counters.count_add, if_neg h, Nat.add_zero]

end Session

namespace Store

variable {σ : Type} {gap : Counter → Int} {s t : Session σ}

theorem searchOrEmpty_apart (store : Store σ) (operation : Operation) (request : SearchRequest)
    (h : s.Apart gap t) :
    (store.searchOrEmpty operation request s).1 = (store.searchOrEmpty operation request t).1 ∧
      (store.searchOrEmpty operation request s).2.Apart gap
        (store.searchOrEmpty operation request t).2 := by
  unfold searchOrEmpty
  rw [h.store]
  cases store.search t.store request with
  | mk answer state =>
      cases answer with
      | ok response => exact ⟨rfl, ((h.withStore state).add _ _).add _ _⟩
      | error e => exact ⟨rfl, ((h.withStore state).add _ _).add _ _⟩

theorem count_searchOrEmpty {counter : Counter} (h : counter.ofRows = true) (store : Store σ)
    (operation : Operation) (request : SearchRequest) (session : Session σ) :
    (store.searchOrEmpty operation request session).2.counters.count counter =
      session.counters.count counter := by
  unfold searchOrEmpty
  cases store.search session.store request with
  | mk answer state =>
      cases answer with
      | ok response =>
          simp only
          rw [Session.count_add_of_ne (by rintro rfl; cases h),
            Session.count_add_of_ne (by rintro rfl; cases h)]
      | error e =>
          simp only
          rw [Session.count_add_of_ne (by rintro rfl; cases h),
            Session.count_add_of_ne (by rintro rfl; cases h)]

end Store

namespace Aggregator

variable {σ : Type} {store : Store σ} {a : Aggregator} {gap : Counter → Int} {s t : Session σ}

/-! ## Searching -/

theorem tryWindow_apart (a : Aggregator) (store : Store σ) (window : TimeRange) (d : Descriptor)
    (h : s.Apart gap t) :
    ∃ t', a.tryWindow store window d t = ((a.tryWindow store window d s).1, t') ∧
      (a.tryWindow store window d s).2.Apart gap t' := by
  obtain ⟨hanswer, hafter⟩ :=
    store.searchOrEmpty_apart .aggregateBucket (a.request window d.tree) h
  exact ⟨_, by rw [tryWindow, tryWindow, hanswer], hafter⟩

theorem fetchWindow_apart (a : Aggregator) (store : Store σ) (window : TimeRange)
    (descriptor : Descriptor) (h : s.Apart gap t) :
    (a.fetchWindow store window descriptor s).1 = (a.fetchWindow store window descriptor t).1 ∧
      (a.fetchWindow store window descriptor s).2.Apart gap
        (a.fetchWindow store window descriptor t).2 := by
  obtain ⟨t', htwin, hafter⟩ := (a.searched store window descriptor s).simulates (Session.Apart gap)
    rfl (fun d _ _ => a.tryWindow_apart store window d) (fun _ _ h => h.add .fieldRemovals 1) h
  rw [htwin.fetchWindow_eq]
  exact ⟨rfl, hafter⟩

theorem fetchWindows_apart (a : Aggregator) (store : Store σ) (windows : List (Moment × Moment))
    (h : s.Apart gap t) :
    (a.fetchWindows store windows s).1 = (a.fetchWindows store windows t).1 ∧
      (a.fetchWindows store windows s).2.Apart gap (a.fetchWindows store windows t).2 := by
  induction windows generalizing s t with
  | nil => exact ⟨rfl, h⟩
  | cons window rest ih =>
      obtain ⟨hresult, hafter⟩ :=
        a.fetchWindow_apart store (Windows.clip a.range window) a.descriptor h
      obtain ⟨hresults, hafter⟩ := ih hafter
      exact ⟨List.cons_eq_cons.mpr ⟨hresult, hresults⟩, hafter⟩

theorem Searched.count {counter : Counter} (h : counter.ofRows = true) {window : TimeRange}
    {d : Descriptor} {out : Except ReadError (List Members × Descriptor) × Session σ}
    (hout : Searched a store window d s out) :
    out.2.counters.count counter = s.counters.count counter := by
  have htry : ∀ {d s result s'}, a.tryWindow store window d s = (result, s') →
      s'.counters.count counter = s.counters.count counter := fun {d s _ _} reply => by
    rw [← store.count_searchOrEmpty h .aggregateBucket (a.request window d.tree) s]
    exact congrArg (·.2.counters.count counter) reply.symm
  induction hout with
  | rows reply => exact htry reply
  | failed reply => exact htry reply
  | again reply _ _ _ ih =>
      rw [ih, Session.count_add_of_ne (by rintro rfl; cases h), htry reply]

theorem count_fetchWindow {counter : Counter} (h : counter.ofRows = true) (a : Aggregator)
    (store : Store σ) (window : TimeRange) (descriptor : Descriptor) (session : Session σ) :
    (a.fetchWindow store window descriptor session).2.counters.count counter =
      session.counters.count counter :=
  (a.searched store window descriptor session).count h

theorem count_fetchWindows {counter : Counter} (h : counter.ofRows = true) (a : Aggregator)
    (store : Store σ) (windows : List (Moment × Moment)) (session : Session σ) :
    (a.fetchWindows store windows session).2.counters.count counter =
      session.counters.count counter := by
  induction windows generalizing session with
  | nil => rfl
  | cons window rest ih =>
      rw [fetchWindows]
      simp only
      rw [ih, a.count_fetchWindow h]

/-! ## Taking in -/

/-- An answer of a window that leaves nothing behind: it has no rows or they are grouped, and no
field was dropped for it. -/
structure Unmoved (a : Aggregator) (answer : List Members × Descriptor) : Prop where
  rows : answer.1 = [] ∨ a.descriptor.isGrouped = true
  fields : ∀ field ∈ answer.2.emptyFields, field ∈ a.descriptor.emptyFields

theorem dropFields_eq_self {used : Descriptor}
    (h : ∀ field ∈ used.emptyFields, field ∈ a.descriptor.emptyFields) : a.dropFields used = a := by
  rw [dropFields_eq, Descriptor.without_of_lacks fun field hfield => .inl (h field hfield)]

theorem receiveWindow_unmoved {logs : List Members} {used : Descriptor}
    (h : a.Unmoved (logs, used)) (index : Nat) (window : Moment × Moment) :
    ∃ rows, a.receiveWindow index window logs used = (rows, 0, a) := by
  rw [receiveWindow, dropFields_eq_self h.fields]
  rcases h.rows with rfl | hgrouped
  · exact ⟨_, rfl⟩
  · simp only [hgrouped, ↓reduceIte]
    split <;> exact ⟨_, rfl⟩

/-- Taking in a window changes the descriptor and the last window with rows only. -/
theorem receiveWindow_frame (a : Aggregator) (index : Nat) (window : Moment × Moment)
    (logs : List Members) (used : Descriptor) :
    ∃ descriptor lastRowWindow, (a.receiveWindow index window logs used).2.2 =
      { a with descriptor, lastRowWindow } := by
  rw [receiveWindow, dropFields_eq]
  simp only
  split
  · exact ⟨_, _, rfl⟩
  · split <;> exact ⟨_, _, rfl⟩

theorem receive_ok (a : Aggregator) (session : Session σ) (index : Nat) (window : Moment × Moment)
    (logs : List Members) (used : Descriptor)
    (rest : List ((Moment × Moment) × Except ReadError (List Members × Descriptor))) :
    a.receive session index ((window, .ok (logs, used)) :: rest) =
      let taken := a.receiveWindow index window logs used
      let behind := taken.2.2.receive (session.add .backfilledRows taken.2.1) (index + 1) rest
      (behind.1.map (taken.1 ++ ·), behind.2) := by
  rw [receive]
  obtain ⟨rows, filled, b⟩ := a.receiveWindow index window logs used
  simp only
  rcases b.receive (session.add .backfilledRows filled) (index + 1) rest with ⟨e | more, c, behind⟩
  · rfl
  · rfl

theorem receive_frame (a : Aggregator) (session : Session σ) (index : Nat)
    (results : List ((Moment × Moment) × Except ReadError (List Members × Descriptor))) :
    ∃ descriptor lastRowWindow, (a.receive session index results).2.1 =
      { a with descriptor, lastRowWindow } := by
  induction results generalizing a session index with
  | nil => exact ⟨_, _, rfl⟩
  | cons result rest ih =>
      obtain ⟨window, e | ⟨logs, used⟩⟩ := result
      · exact ⟨_, _, rfl⟩
      · obtain ⟨descriptor, last, hwindow⟩ := a.receiveWindow_frame index window logs used
        rw [receive_ok]
        simp only
        rw [hwindow]
        exact ih _ _ _

theorem receive_apart (a : Aggregator) (index : Nat)
    (results : List ((Moment × Moment) × Except ReadError (List Members × Descriptor)))
    (h : s.Apart gap t) :
    (a.receive s index results).1 = (a.receive t index results).1 ∧
      (a.receive s index results).2.1 = (a.receive t index results).2.1 ∧
      (a.receive s index results).2.2.Apart gap (a.receive t index results).2.2 := by
  induction results generalizing a s t index with
  | nil => exact ⟨rfl, rfl, h⟩
  | cons result rest ih =>
      obtain ⟨window, e | ⟨logs, used⟩⟩ := result
      · exact ⟨rfl, rfl, h⟩
      · obtain ⟨hrows, hbehind, hafter⟩ := ih (a.receiveWindow index window logs used).2.2
          (index + 1) (h.add .backfilledRows (a.receiveWindow index window logs used).2.1)
        rw [receive_ok, receive_ok]
        simp only
        exact ⟨by rw [hrows], hbehind, hafter⟩

/-- What was answered before the first failure. -/
def answered : List (Except ReadError (List Members × Descriptor)) →
    List (List Members × Descriptor)
  | .ok answer :: rest => answer :: answered rest
  | _ => []

/-- A failure behind answers that leave nothing leaves nothing. -/
theorem receive_unmoved {e : ReadError} {session : Session σ} {index : Nat}
    {windows : List (Moment × Moment)}
    {results : List (Except ReadError (List Members × Descriptor))}
    (h : (a.receive session index (windows.zip results)).1 = .error e)
    (hunmoved : ∀ answer ∈ answered results, a.Unmoved answer) :
    (a.receive session index (windows.zip results)).2.1 = a ∧
      ∀ counter, (a.receive session index (windows.zip results)).2.2.counters.count counter =
        session.counters.count counter := by
  induction windows generalizing session index results e with
  | nil => cases h
  | cons window windows ih =>
      match results with
      | [] => cases h
      | .error _ :: _ => exact ⟨rfl, fun _ => rfl⟩
      | .ok (logs, used) :: results =>
          obtain ⟨rows, hwindow⟩ :=
            receiveWindow_unmoved (hunmoved _ List.mem_cons_self) index window
          rw [List.zip_cons_cons, receive_ok, hwindow] at h ⊢
          cases hrest : (a.receive (session.add .backfilledRows 0) (index + 1)
              (windows.zip results)).1 with
          | ok more =>
              simp only [hrest] at h
              cases h
          | error e' =>
              obtain ⟨hbehind, hcount⟩ := ih hrest fun answer hanswer =>
                hunmoved answer (List.mem_cons_of_mem _ hanswer)
              refine ⟨hbehind, fun counter => (hcount counter).trans ?_⟩
              simp [Session.add, Counters.count_add]

/-! ## Fetching -/

/-- The windows of the next fetch. -/
def batch (a : Aggregator) : List (Moment × Moment) :=
  (a.windows.drop a.next).take (max a.options.concurrency 1)

/-- What the next fetch takes in. -/
def attempt (a : Aggregator) (store : Store σ) (session : Session σ) :
    Except ReadError (List Row) × Aggregator × Session σ :=
  a.receive (a.fetchWindows store a.batch session).2 a.next
    (a.batch.zip (a.fetchWindows store a.batch session).1)

theorem attempt_apart (a : Aggregator) (store : Store σ) (h : s.Apart gap t) :
    (a.attempt store s).1 = (a.attempt store t).1 ∧
      (a.attempt store s).2.1 = (a.attempt store t).2.1 ∧
      (a.attempt store s).2.2.Apart gap (a.attempt store t).2.2 := by
  obtain ⟨hresults, hfound⟩ := a.fetchWindows_apart store a.batch h
  rw [attempt, attempt, hresults]
  exact a.receive_apart a.next _ hfound

theorem fetch_end (store : Store σ) (session : Session σ) (hend : a.windows.length ≤ a.next) :
    a.fetch store session = (.ok ⟨[], true⟩, a, session) := by
  rw [fetch]
  simp only
  rw [if_pos hend]

theorem fetch_next (store : Store σ) (session : Session σ) (hnext : ¬a.windows.length ≤ a.next) :
    a.fetch store session =
      match a.attempt store session with
      | (.error e, b, session) => (.error e, b, session)
      | (.ok rows, b, session) =>
        let b := { b with next := b.next + a.batch.length }
        (.ok ⟨rows, a.windows.length ≤ b.next⟩, b,
          session.add (.fetchedRows .aggregateBucket) rows.length) := by
  rw [fetch]
  simp only
  rw [if_neg hnext]
  rfl

/-- What a fetch gives does not depend on the counters, and each of them grows alike whatever they
were. -/
theorem fetch_apart (a : Aggregator) (store : Store σ) (h : s.Apart gap t) :
    (a.fetch store s).1 = (a.fetch store t).1 ∧ (a.fetch store s).2.1 = (a.fetch store t).2.1 ∧
      (a.fetch store s).2.2.Apart gap (a.fetch store t).2.2 := by
  by_cases hend : a.windows.length ≤ a.next
  · rw [fetch_end store s hend, fetch_end store t hend]
    exact ⟨rfl, rfl, h⟩
  · have hattempt := a.attempt_apart store h
    rw [fetch_next store s hend, fetch_next store t hend]
    generalize a.attempt store s = taken at hattempt ⊢
    generalize a.attempt store t = taken' at hattempt ⊢
    obtain ⟨result, b, after⟩ := taken
    obtain ⟨result', b', after'⟩ := taken'
    obtain ⟨rfl, rfl, hafter⟩ := hattempt
    cases result with
    | error e => exact ⟨rfl, rfl, hafter⟩
    | ok rows => exact ⟨rfl, rfl, hafter.add _ _⟩

theorem attempt_of_fetch_error {e : ReadError} {a' : Aggregator} {session session' : Session σ}
    (h : a.fetch store session = (.error e, a', session')) :
    a.attempt store session = (.error e, a', session') := by
  by_cases hend : a.windows.length ≤ a.next
  · rw [fetch_end store session hend] at h
    cases h
  · rw [fetch_next store session hend] at h
    generalize a.attempt store session = taken at h ⊢
    obtain ⟨e' | rows, b, after⟩ := taken
    · cases h
      rfl
    · cases h

/-- A fetch that fails leaves its windows to the next one. Where the windows before the failure left
nothing behind, the aggregator and the counters of rows are as they were, and a retry comes to what
a first try against that store comes to. -/
theorem fetch_error {e : ReadError} {a' : Aggregator} {session session' : Session σ}
    (h : a.fetch store session = (.error e, a', session')) :
    a' = { a with descriptor := a'.descriptor, lastRowWindow := a'.lastRowWindow } ∧
      ((∀ answer ∈ answered (a.fetchWindows store a.batch session).1, a.Unmoved answer) →
        a' = a ∧
        (∀ counter, counter.ofRows = true →
          session'.counters.count counter = session.counters.count counter) ∧
        ∀ counters,
          let retried := a'.fetch store session'
          let fresh := a.fetch store ⟨session'.store, counters⟩
          retried.1 = fresh.1 ∧ retried.2.1 = fresh.2.1 ∧
            retried.2.2.store = fresh.2.2.store ∧
            ∀ counter,
              (retried.2.2.counters.count counter : Int) - session'.counters.count counter =
                fresh.2.2.counters.count counter - counters.count counter) := by
  have hattempt := attempt_of_fetch_error h
  refine ⟨?_, fun hunmoved => ?_⟩
  · obtain ⟨descriptor, last, hframe⟩ := a.receive_frame (a.fetchWindows store a.batch session).2
      a.next (a.batch.zip (a.fetchWindows store a.batch session).1)
    rw [← attempt, hattempt] at hframe
    obtain rfl : a' = _ := hframe
    rfl
  · obtain ⟨hstays, hcount⟩ := receive_unmoved (congrArg Prod.fst hattempt) hunmoved
    rw [← attempt, hattempt] at hstays hcount
    obtain rfl : a' = a := hstays
    refine ⟨rfl, fun counter hrows => ?_, fun counters => ?_⟩
    · exact (hcount counter).trans (a'.count_fetchWindows hrows store a'.batch session)
    · have hapart : session'.Apart (fun counter =>
          (session'.counters.count counter : Int) - counters.count counter)
          ⟨session'.store, counters⟩ := ⟨rfl, fun _ => by simp only; omega⟩
      obtain ⟨hrows, hbehind, hafter⟩ := a'.fetch_apart store hapart
      refine ⟨hrows, hbehind, hafter.store, fun counter => ?_⟩
      have hgap := hafter.counters counter
      omega

/-- The second of three windows fails behind one without documents. -/
theorem fetch_error_quiet :
    let a : Aggregator := {
      indices := ["logs"], filter := none, options := ⟨"@timestamp", 10, .standard⟩
      descriptor := ⟨[], some "count", [("count", .nat 0)], [], some (.millis 60000), none, []⟩
      range := ⟨.utc 1704067200000000000, .utc 1704067380000000000⟩
      boundaries := [.utc 1704067200000000000, .utc 1704067260000000000,
        .utc 1704067320000000000, .utc 1704067380000000000]
      next := 0, lastRowWindow := none }
    let store : ScriptedStore := ⟨⟨[], 10000⟩,
      [.answer (.ok .empty), .answer (.error (.other "boom")), .answer (.ok ⟨1, [], []⟩)], []⟩
    ∃ e a' session', a.fetch ScriptedStore.store ⟨store, .zero⟩ = (.error e, a', session') ∧
      a' = a ∧ session'.counters.count .backfilledRows = 0 := by
  intro a store
  have herror : (a.fetch ScriptedStore.store ⟨store, .zero⟩).1 =
      .error (.store (.other "boom")) := by cbv
  have hanswered : answered (a.fetchWindows ScriptedStore.store a.batch ⟨store, .zero⟩).1 =
      [([], a.descriptor)] := by cbv
  have hunmoved : ∀ answer ∈ answered (a.fetchWindows ScriptedStore.store a.batch ⟨store, .zero⟩).1,
      a.Unmoved answer := by
    rw [hanswered]
    exact List.forall_mem_singleton.mpr ⟨.inl rfl, fun _ h => h⟩
  have hfetch : a.fetch ScriptedStore.store ⟨store, .zero⟩ =
      (.error (.store (.other "boom")), (a.fetch ScriptedStore.store ⟨store, .zero⟩).2.1,
        (a.fetch ScriptedStore.store ⟨store, .zero⟩).2.2) := Prod.ext herror rfl
  obtain ⟨hsame, hrows, -⟩ := (fetch_error hfetch).2 hunmoved
  exact ⟨_, _, _, hfetch, hsame, hrows .backfilledRows rfl⟩

/-- The second of three windows fails behind one with a row. The retry finds a row in the last
window only, and takes the window before it for a gap. -/
theorem fetch_error_moved :
    let descriptor : Descriptor :=
      ⟨[], some "count", [("count", .nat 0)], [], some (.millis 60000), none, []⟩
    let range : TimeRange := ⟨.utc 1704067200000000000, .utc 1704067380000000000⟩
    let counted : ScriptEntry := .answer (.ok ⟨1, [], []⟩)
    let quiet : ScriptEntry := .answer (.ok .empty)
    let store : ScriptedStore := ⟨⟨[], 10000⟩,
      [counted, .answer (.error (.other "boom")), quiet, quiet, quiet, counted], []⟩
    ∃ a, start? ["logs"] range descriptor ⟨"@timestamp", 10, .standard⟩ none = .ok a ∧
      let failed := a.fetch ScriptedStore.store ⟨store, .zero⟩
      let retried := failed.2.1.fetch ScriptedStore.store failed.2.2
      let fresh := a.fetch ScriptedStore.store failed.2.2
      failed.1 = .error (.store (.other "boom")) ∧
        a.lastRowWindow = none ∧ failed.2.1.lastRowWindow = some 0 ∧
        retried.1.map (·.rows.length) = .ok 2 ∧ fresh.1.map (·.rows.length) = .ok 1 ∧
        retried.2.2.counters.count .backfilledRows = 1 ∧
        fresh.2.2.counters.count .backfilledRows = 0 := by
  refine ⟨_, by cbv, ?_⟩
  exact ⟨by cbv, by cbv, by cbv, by cbv, by cbv, by cbv, by cbv⟩

end Aggregator
end Sluice
