import Sluice.Proofs.Flattening
import Sluice.Proofs.WindowSearches

/-!
Tries at a window. A store may answer each search with anything, an error or a response that has no
buckets for some level. A window is searched again only without a field that was grouped by, so what
it still groups by bounds how often, and what is left of an unknown field at the end is one that the
store named and that was not grouped by.
-/
namespace Sluice

variable {σ : Type}

/-! ## Answers on record -/

/-- A store that also keeps its answers, each with what was asked, the last one first. -/
def Store.answering (store : Store σ) :
    Store (σ × List (SearchRequest × Except StoreError Response)) where
  search state request :=
    let (answer, next) := store.search state.1 request
    (answer, next, (request, answer) :: state.2)

namespace Session

/-- All answers of a session so far, the last one first. -/
def answers (session : Session (σ × List (SearchRequest × Except StoreError Response))) :
    List (SearchRequest × Except StoreError Response) :=
  session.store.2

/-- A session whose answers are kept from now on. -/
def keeping (session : Session σ) :
    Session (σ × List (SearchRequest × Except StoreError Response)) :=
  ⟨(session.store, []), session.counters⟩

/-- A session without its answers. -/
def forgetting (session : Session (σ × List (SearchRequest × Except StoreError Response))) :
    Session σ :=
  ⟨session.store.1, session.counters⟩

@[simp] theorem answers_add
    (session : Session (σ × List (SearchRequest × Except StoreError Response))) (counter : Counter)
    (n : Nat) : (session.add counter n).answers = session.answers := rfl

@[simp] theorem forgetting_add
    (session : Session (σ × List (SearchRequest × Except StoreError Response))) (counter : Counter)
    (n : Nat) : (session.add counter n).forgetting = session.forgetting.add counter n := rfl

end Session

/-- What a read gets of an answer. -/
def Store.absorbed : Except StoreError Response → Except ReadError Response
  | .ok response => .ok response
  | .error e => absorb e

/-- Keeping the answers changes none of them. -/
theorem Store.searchOrEmpty_answering (store : Store σ) (operation : Operation)
    (request : SearchRequest)
    (session : Session (σ × List (SearchRequest × Except StoreError Response))) :
    ∃ answer after,
      store.answering.searchOrEmpty operation request session = (absorbed answer, after) ∧
      store.searchOrEmpty operation request session.forgetting =
        (absorbed answer, after.forgetting) ∧
      after.answers = (request, answer) :: session.answers := by
  refine ⟨(store.search session.store.1 request).1,
    (store.answering.searchOrEmpty operation request session).2, ?_⟩
  simp only [searchOrEmpty, answering, Session.forgetting]
  cases (store.search session.store.1 request).1 with
  | ok response => exact ⟨rfl, rfl, rfl⟩
  | error e => exact ⟨rfl, rfl, rfl⟩

/-- An error names an unknown field only if it is one of the store, which names that field. -/
theorem Store.unknownField?_absorb {e : StoreError} {error : ReadError} {field : String}
    (h : absorb e = .error error) (hfield : error.unknownField? = some field) :
    e.fault = .missingField field := by
  unfold absorb at h
  split at h
  · cases h
  · cases h
  · rename_i name hfault
    cases h
    cases hfield
    exact hfault
  · cases h
    cases hfield
  · cases h
    cases hfield
  · cases h
    cases hfield

namespace Descriptor

variable {d fewer : Descriptor} {sizes : BucketSizes} {field : String}

/-! ## Fields that a response lacks -/

theorem Reached.mem {keys : List String} {results node : Results} {key : String}
    (h : Reached keys results key node) : key ∈ keys := by
  induction h with
  | here => exact List.mem_cons_self
  | inside _ _ ih => exact List.mem_cons_of_mem _ ih

/-- A response is at fault for a field only if it is grouped by. -/
theorem mem_grouping_of_rowsOf {response : Response}
    (h : d.rowsOf response = .error (.fieldUnknown field)) : field ∈ d.grouping := by
  rw [rowsOf_eq, orFault_eq_error] at h
  obtain ⟨key, node, hreached, hfault⟩ := mem_faults.mp (List.mem_of_mem_head? h)
  obtain ⟨rfl, -, htime⟩ := fieldUnknown_mem_faultsAt.mp hfault
  rcases List.mem_append.mp hreached.mem with hgrouped | hlevel
  · exact hgrouped
  · -- The level of time is no level of a field.
    cases hbucketed : d.timeBucketed with
    | false => simp [hbucketed] at hlevel
    | true =>
        obtain rfl : field = timeKey := by simpa [hbucketed] using hlevel
        simp [isTimeLevel, hbucketed] at htime

/-- A removal takes one of the names away, however often it is grouped by. -/
theorem card_grouping_of_removeField? (h : d.removeField? field sizes = some fewer) :
    fewer.grouping.toFinset.card + 1 = d.grouping.toFinset.card := by
  rw [removeField?] at h
  split at h
  · rename_i hmem
    cases h
    have herase : (d.grouping.filter (· ≠ field)).toFinset = d.grouping.toFinset.erase field := by
      ext name
      simp [and_comm]
    rw [herase]
    exact Finset.card_erase_add_one (List.mem_toFinset.mpr hmem)
  · cases h

end Descriptor

namespace Aggregator

variable {a : Aggregator} {store : Store σ} {sizes : BucketSizes} {d fewer : Descriptor}
  {field : String} {e : ReadError}

/-! ## Tries -/

/-- A search for a window, by what was grouped then, and its answer. -/
structure Try where
  descriptor : Descriptor
  answer : Except StoreError Response

namespace Try

/-- What a window is asked in a try, and what is answered. -/
def exchange (a : Aggregator) (window : TimeRange) (t : Try) :
    SearchRequest × Except StoreError Response :=
  (a.request window t.descriptor.tree, t.answer)

/-- The rows of a try. -/
def rows (t : Try) : Except ReadError (List Members) :=
  (Store.absorbed t.answer).bind (rowsOf t.descriptor)

/-- A fault in an answer, as opposed to an error instead of it. -/
def FaultIn (t : Try) (field : String) : Prop :=
  ∃ response, t.answer = .ok response ∧ ∃ e,
    rowsOf t.descriptor response = .error e ∧ e.unknownField? = some field

end Try

/-- What a window comes to in a row of tries. A try that has rows is the last, and so is one that
fails for anything but a field that is grouped by. Behind any other stand tries without that field. -/
inductive Tries (sizes : BucketSizes) :
    Descriptor → List Try → Except ReadError (List Members × Descriptor) → Prop where
  | rows {d : Descriptor} {answer : Except StoreError Response} {rows : List Members}
    (h : (Try.mk d answer).rows = .ok rows) : Tries sizes d [⟨d, answer⟩] (.ok (rows, d))
  | failure {d : Descriptor} {answer : Except StoreError Response} {e : ReadError}
    (h : (Try.mk d answer).rows = .error e)
    (hfield : ∀ field, e.unknownField? = some field → field ∉ d.grouping) :
    Tries sizes d [⟨d, answer⟩] (.error e)
  | again {d fewer : Descriptor} {answer : Except StoreError Response} {e : ReadError}
    {field : String} {tries : List Try} {result : Except ReadError (List Members × Descriptor)}
    (h : (Try.mk d answer).rows = .error e) (hfield : e.unknownField? = some field)
    (hfewer : d.removeField? field sizes = some fewer) (hrest : Tries sizes fewer tries result) :
    Tries sizes d (⟨d, answer⟩ :: tries) result

theorem Try.FaultIn.mem_grouping {t : Try} (h : t.FaultIn field) :
    field ∈ t.descriptor.grouping := by
  obtain ⟨response, -, e, hrows, hfield⟩ := h
  rw [rowsOf] at hrows
  split at hrows
  · cases hrows
  · cases hdecoded : t.descriptor.rowsOf response with
    | ok rows => simp [hdecoded, Except.mapError] at hrows
    | error cause =>
        obtain rfl : .rows cause = e := by simpa [hdecoded, Except.mapError] using hrows
        cases cause with
        | fieldUnknown name =>
            cases hfield
            exact Descriptor.mem_grouping_of_rowsOf hdecoded
        | levelMissing key => cases hfield
        | levelIsValue key => cases hfield
        | timeKey cause => cases hfield

theorem Try.FaultIn.rows {t : Try} (h : t.FaultIn field) :
    ∃ e, t.rows = .error e ∧ e.unknownField? = some field := by
  obtain ⟨response, hanswer, e, hrows, hfield⟩ := h
  refine ⟨e, ?_, hfield⟩
  rw [Try.rows, hanswer]
  exact hrows

/-- A try fails for an unknown field by a fault in its answer, or because the store named it. -/
theorem Try.unknown {t : Try} (h : t.rows = .error e) (hfield : e.unknownField? = some field) :
    t.FaultIn field ∨ ∃ cause, t.answer = .error cause ∧ cause.fault = .missingField field := by
  cases hanswer : t.answer with
  | ok response =>
      rw [Try.rows, hanswer] at h
      exact .inl ⟨response, hanswer, e, h, hfield⟩
  | error cause =>
      rw [Try.rows, hanswer] at h
      cases habsorbed : Store.absorb cause with
      | ok response =>
          -- What is absorbed is the answer of an empty store, which has no rows.
          rw [Store.absorbed, habsorbed, Store.absorb_eq_ok habsorbed] at h
          cases h
      | error error =>
          rw [Store.absorbed, habsorbed] at h
          cases h
          exact .inr ⟨cause, rfl, Store.unknownField?_absorb habsorbed hfield⟩

namespace Tries

variable {tries : List Try} {result : Except ReadError (List Members × Descriptor)}

theorem length_le (h : Tries sizes d tries result) :
    tries.length ≤ d.grouping.toFinset.card + 1 := by
  induction h with
  | rows => exact Nat.le_add_left 1 _
  | failure => exact Nat.le_add_left 1 _
  | again _ _ hfewer _ ih =>
      have hcard := Descriptor.card_grouping_of_removeField? hfewer
      rw [List.length_cons]
      omega

theorem exists_first (h : Tries sizes d tries result) :
    ∃ answer rest, tries = ⟨d, answer⟩ :: rest := by
  cases h with
  | rows => exact ⟨_, _, rfl⟩
  | failure => exact ⟨_, _, rfl⟩
  | again => exact ⟨_, _, rfl⟩

/-- A fault in an answer is followed by a try without the field. -/
theorem retried (h : Tries sizes d tries result) {t : Try} (ht : t ∈ tries)
    (hfault : t.FaultIn field) :
    ∃ fewer answer, t.descriptor.removeField? field sizes = some fewer ∧
      [t, ⟨fewer, answer⟩] <:+: tries := by
  induction h with
  | rows hrows =>
      obtain rfl := List.mem_singleton.mp ht
      obtain ⟨e, herror, -⟩ := hfault.rows
      cases hrows.symm.trans herror
  | failure herror hnone =>
      obtain rfl := List.mem_singleton.mp ht
      obtain ⟨e, herror', hfield⟩ := hfault.rows
      cases herror.symm.trans herror'
      exact absurd hfault.mem_grouping (hnone field hfield)
  | again herror hnamed hfewer hrest ih =>
      rcases List.mem_cons.mp ht with rfl | ht
      · obtain ⟨e, herror', hfield⟩ := hfault.rows
        cases herror.symm.trans herror'
        cases hnamed.symm.trans hfield
        obtain ⟨answer, rest, rfl⟩ := hrest.exists_first
        exact ⟨_, answer, hfewer, [], rest, rfl⟩
      · obtain ⟨fewer, answer, hremoved, hnext⟩ := ih ht
        exact ⟨fewer, answer, hremoved, hnext.trans (List.suffix_cons _ _).isInfix⟩

/-- An unknown field at the end is one that the store named in its last answer. -/
theorem named (h : Tries sizes d tries (.error e)) (hfield : e.unknownField? = some field) :
    ∃ last cause, tries.getLast? = some last ∧ last.answer = .error cause ∧
      cause.fault = .missingField field ∧ field ∉ last.descriptor.grouping := by
  generalize hresult : (Except.error e : Except ReadError (List Members × Descriptor)) = result at h
  induction h with
  | rows => cases hresult
  | failure herror hnone =>
      cases hresult
      rcases Try.unknown herror hfield with hfault | ⟨cause, hanswer, hcause⟩
      · exact absurd hfault.mem_grouping (hnone field hfield)
      · exact ⟨_, cause, rfl, hanswer, hcause, hnone field hfield⟩
  | again _ _ _ hrest ih =>
      obtain ⟨last, cause, hlast, h⟩ := ih hresult
      refine ⟨last, cause, ?_, h⟩
      rw [List.getLast?_cons, hlast]
      rfl

end Tries

theorem answering_of_reply {window : TimeRange} {d : Descriptor}
    {session session' : Session (σ × List (SearchRequest × Except StoreError Response))}
    {rows : Except ReadError (List Members)}
    (reply : a.tryWindow store.answering window d session = (rows, session')) :
    ∃ answer, (Try.mk d answer).rows = rows ∧
      a.tryWindow store window d session.forgetting = (rows, session'.forgetting) ∧
      session'.answers = Try.exchange a window ⟨d, answer⟩ :: session.answers := by
  obtain ⟨answer, after, hkept, hplain, hrecord⟩ := store.searchOrEmpty_answering
    .aggregateBucket (a.request window d.tree) session
  rw [tryWindow, hkept] at reply
  obtain ⟨rfl, rfl⟩ := Prod.mk.inj reply
  exact ⟨answer, rfl, by rw [tryWindow, hplain], hrecord⟩

theorem Searched.tries {window : TimeRange}
    {session : Session (σ × List (SearchRequest × Except StoreError Response))}
    {out : Except ReadError (List Members × Descriptor) ×
      Session (σ × List (SearchRequest × Except StoreError Response))}
    (h : Searched a store.answering window d session out) :
    ∃ tries after, Tries a.options.sizes d tries out.1 ∧
      Searched a store window d session.forgetting (out.1, after) ∧
      out.2.answers = (tries.map (Try.exchange a window)).reverse ++ session.answers := by
  induction h with
  | @rows d session session' rows reply =>
      obtain ⟨answer, hrows, hplain, hrecord⟩ := answering_of_reply reply
      exact ⟨[⟨d, answer⟩], _, .rows hrows, .rows hplain, hrecord⟩
  | @failed d session session' e reply known =>
      obtain ⟨answer, hrows, hplain, hrecord⟩ := answering_of_reply reply
      exact ⟨[⟨d, answer⟩], _, .failure hrows known, .failed hplain known, hrecord⟩
  | @again d fewer session session' e field out reply unknown removed _ ih =>
      obtain ⟨answer, hrows, hplain, hrecord⟩ := answering_of_reply reply
      obtain ⟨tries, after, htries, hsearched, hrest⟩ := ih
      refine ⟨⟨d, answer⟩ :: tries, after, .again hrows unknown removed htries,
        .again hplain unknown removed hsearched, ?_⟩
      rw [hrest, Session.answers_add, hrecord, List.map_cons, List.reverse_cons,
        List.append_assoc]
      rfl

theorem fetchWindow_tries (a : Aggregator) (store : Store σ) (window : TimeRange) (d : Descriptor)
    (session : Session (σ × List (SearchRequest × Except StoreError Response))) :
    ∃ tries, Tries a.options.sizes d tries
        (a.fetchWindow store window d session.forgetting).1 ∧
      (a.fetchWindow store.answering window d session).2.answers =
        (tries.map (Try.exchange a window)).reverse ++ session.answers := by
  obtain ⟨tries, after, htries, hplain, hrecord⟩ :=
    (a.searched store.answering window d session).tries
  rw [hplain.fetchWindow_eq]
  exact ⟨tries, htries, hrecord⟩

/-- Whatever a store answers, a window is searched once for each name that it is grouped by and once
more at most. A field without buckets in an answer is grouped by, and the window searched again
without it. A window ends with an unknown field only if the store itself named the field and it was
not grouped by. -/
theorem fetchWindow_settles (a : Aggregator) (store : Store σ) (window : TimeRange) (d : Descriptor)
    (session : Session σ) :
    ∃ tries : List Try,
      Tries a.options.sizes d tries (a.fetchWindow store window d session).1 ∧
      (a.fetchWindow store.answering window d session.keeping).2.answers =
        (tries.map (Try.exchange a window)).reverse ∧
      tries.length ≤ d.grouping.toFinset.card + 1 ∧
      (∀ t ∈ tries, ∀ field, t.FaultIn field → field ∈ t.descriptor.grouping ∧
        ∃ fewer answer, t.descriptor.removeField? field a.options.sizes = some fewer ∧
          [t, ⟨fewer, answer⟩] <:+: tries) ∧
      ∀ e field, (a.fetchWindow store window d session).1 = .error e →
        e.unknownField? = some field →
        ∃ last cause, tries.getLast? = some last ∧ last.answer = .error cause ∧
          cause.fault = .missingField field ∧ field ∉ last.descriptor.grouping := by
  obtain ⟨tries, htries, hrecord⟩ := a.fetchWindow_tries store window d session.keeping
  have hanswers : session.keeping.answers = [] := rfl
  rw [hanswers, List.append_nil] at hrecord
  refine ⟨tries, htries, hrecord, htries.length_le, fun t ht field hfault => ?_,
    fun e field herror hfield => ?_⟩
  · exact ⟨hfault.mem_grouping, htries.retried ht hfault⟩
  · exact Tries.named (herror ▸ htries) hfield

end Aggregator
end Sluice
