import Mathlib
import Sluice.Proofs.Turns
import Sluice.Read

/-!
Pagers run to the end. Each fetch takes at most two turns, each batch is a part of what was owed,
and a drained pager has handed over all of it.
-/
namespace Sluice.Pager

open Document

variable {p : Pager} {memory : MemoryStore} {session : Session ScriptedStore}

/-! ## Searching -/

/-- The documents that a pager searches. -/
def searched (p : Pager) (memory : MemoryStore) : List Members := memory.searched p.indices

/-- How many documents whole pages of `size` must hold to hold `count`. -/
def roundUp (count size : Nat) : Nat := (count + size - 1) / size * size

/-- No millisecond has more documents than a page, or the store's window and the limit on deep
paging leave room for all pages of it. -/
structure Roomy (p : Pager) (memory : MemoryStore) : Prop where
  page : p.options.fetchSize ≤ memory.maxResultWindow
  ties : ∀ document ∈ p.within (p.searched memory),
    let count := (p.ties (p.searched memory) (tick p.options.timeField document)).length
    count < p.options.fetchSize ∨
      roundUp count p.options.fetchSize ≤ min p.options.deepPagingLimit memory.maxResultWindow

theorem add_le_roundUp {offset count size : Nat} (hsize : 0 < size) (hdvd : size ∣ offset)
    (h : offset < count) : offset + size ≤ roundUp count size := by
  obtain ⟨pages, rfl⟩ := hdvd
  have hpages : (size * pages + size) / size ≤ (count + size - 1) / size :=
    Nat.div_le_div_right (by omega)
  rw [← Nat.mul_succ, Nat.mul_div_cancel_left _ hsize] at hpages
  calc size * pages + size = (pages + 1) * size := by rw [Nat.mul_comm, Nat.succ_mul]
    _ ≤ roundUp count size := Nat.mul_le_mul_right _ hpages

theorem Follows.searched_eq {p' : Pager} (h : p'.Follows p) :
    p'.searched memory = p.searched memory := by
  rw [searched, h.indices]
  rfl

theorem Roomy.follows {p' : Pager} (h : p.Roomy memory) (hf : p'.Follows p)
    (hsub : ∀ document ∈ p'.within (p.searched memory), document ∈ p.within (p.searched memory)) :
    p'.Roomy memory := by
  refine ⟨hf.options ▸ h.page, fun document hmem => ?_⟩
  rw [hf.searched_eq] at hmem ⊢
  have hties : p'.ties (p.searched memory) (tick p'.options.timeField document) =
      p.ties (p.searched memory) (tick p.options.timeField document) := by
    rw [Pager.ties, Pager.ties, hf.options, hf.filter]
  rw [hties, hf.options]
  exact h.ties document (hsub document hmem)

theorem Clear.follows {documents : List Members} {p' : Pager} (h : p.Clear documents)
    (hf : p'.Follows p) : p'.Clear documents where
  plain := hf.options ▸ h.plain
  dated := hf.options ▸ h.dated
  fetchSize_pos := hf.options ▸ h.fetchSize_pos

/-- What one step of a read on a store in memory gives: where the read is clear, it fails only for
want of room. -/
structure Serves (memory : MemoryStore) (p : Pager) (result : Except ReadError Batch) (p' : Pager)
    (session' : Session ScriptedStore) : Prop where
  answers : session'.Answers memory
  delivers : ∀ batch, result = .ok batch → Delivers (p.searched memory) p batch p'
  roomy : p.Clear (p.searched memory) → p.Roomy memory → ∃ batch, result = .ok batch

theorem answers_countRows (h : session.Answers memory) (operation : Operation)
    (result : Except ReadError Batch) : (countRows operation result session).Answers memory := by
  cases result with
  | ok batch => exact h.add _ _
  | error e => exact h

theorem Between.answer (h : p.Between (p.searched memory)) {start : Nat} {clause : Json}
    (hclause : Condition.Decides clause) (hwords : start + p.requestSize < Word.unsignedLimit)
    (hlimit : memory.maxResultWindow < Word.unsignedLimit) :
    memory.answer (p.request start clause) =
        .ok ((p.query start clause).answer (p.searched memory)) ∨
      memory.maxResultWindow < start + p.requestSize ∧
        ∃ e, memory.answer (p.request start clause) = .error e := by
  rw [request_eq]
  refine MemoryStore.answer_query rfl (fun c hc => ?_) hwords hlimit
  rcases List.mem_cons.mp hc with rfl | hc
  · exact hclause
  · exact h.decides c hc

theorem Serves.of_error {e : ReadError} {p' : Pager} {session' : Session ScriptedStore}
    (hanswers : session'.Answers memory) (h : p.Clear (p.searched memory) → ¬p.Roomy memory) :
    Serves memory p (.error e) p' session' where
  answers := hanswers
  delivers := fun _ hbatch => nomatch hbatch
  roomy := fun hclear hroomy => absurd hroomy (h hclear)

theorem Serves.of_receives {result : Except ReadError Batch} {p' : Pager}
    {session' : Session ScriptedStore} (hanswers : session'.Answers memory)
    (h : Receives (p.searched memory) p result p') : Serves memory p result p' session' where
  answers := hanswers
  delivers := h.delivers
  roomy := fun hclear _ => h.clear hclear

theorem Serves.of_ask (hsession : session.Answers memory) {operation : Operation}
    {request : SearchRequest} {receive : Response → Except ReadError Batch × Pager} {q : Pager}
    (hanswer : (∃ response, memory.answer request = .ok response ∧
        Receives (p.searched memory) p (receive response).1 (receive response).2) ∨
      (∃ e, memory.answer request = .error e) ∧ (p.Clear (p.searched memory) → ¬p.Roomy memory)) :
    let out := ask ScriptedStore.store operation request receive q session
    Serves memory p out.1 out.2.1 out.2.2 := by
  obtain ⟨session', hanswers, hsearch⟩ :=
    MemoryStore.searchOrEmpty_answer hsession operation request
  unfold ask
  simp only [hsearch]
  rcases hanswer with ⟨response, hanswer, hreceives⟩ | ⟨⟨e, hanswer⟩, hroomy⟩
  · rw [hanswer]
    exact .of_receives (answers_countRows hanswers _ _) hreceives
  · rw [hanswer]
    exact .of_error hanswers hroomy

theorem Between.askPage (h : p.Between (p.searched memory)) (hsession : session.Answers memory)
    (hlimit : memory.maxResultWindow < Word.unsignedLimit) (hpaging : p.state = .paging)
    (hmore : p.remaining ≠ some 0) :
    let out := ask ScriptedStore.store .page p.pageRequest p.receivePage p session
    Serves memory p out.1 out.2.1 out.2.2 := by
  have hsize := requestSize_le p
  have hfetch := h.fetchSize_lt
  have hanswer := @Between.answer p memory h 0 (p.range.clause p.options.timeField)
    (Clause.Plain.range _ _).2 (by omega) hlimit
  rcases hanswer with hanswer | ⟨hwindow, herror⟩
  · rw [h.answer_page] at hanswer
    exact .of_ask hsession (.inl ⟨_, hanswer, h.takesPage hpaging hmore (p.takesPage _)⟩)
  · refine .of_ask hsession (.inr ⟨herror, fun _ hroomy => ?_⟩)
    have := hroomy.page
    omega

theorem Roomy.bridge_le (hroomy : p.Roomy memory) {m : Moment}
    (hm : p.Bridges (p.searched memory) m) :
    p.bridgeOffset + p.requestSize ≤ min p.options.deepPagingLimit memory.maxResultWindow := by
  have hoffset := hm.offset_lt
  obtain ⟨document, hmem⟩ := List.exists_mem_of_length_pos (Nat.zero_lt_of_lt hoffset)
  have htick := (tick_of_mem_ties hmem).2
  have hwithin : document ∈ p.within (p.searched memory) := by
    rw [← filter_tick_within hm.covers] at hmem
    exact (List.mem_filter.mp hmem).1
  have hties := hroomy.ties document hwithin
  rw [htick] at hties
  have hpages := add_le_roundUp hm.fetchSize_pos hm.fetchSize_dvd hoffset
  rcases hties with hfew | hroom
  · exact absurd hm.fetchSize_le (Nat.not_le.mpr hfew)
  · calc p.bridgeOffset + p.requestSize ≤ p.bridgeOffset + p.options.fetchSize :=
          Nat.add_le_add_left (requestSize_le p) _
      _ ≤ _ := Nat.le_trans hpages hroom

theorem Between.askPart (h : p.Between (p.searched memory)) (hsession : session.Answers memory)
    (hlimit : memory.maxResultWindow < Word.unsignedLimit) {m : Moment}
    (hm : p.Bridges (p.searched memory) m) (hlast : p.lastSeen = some m)
    (hstate : p.state = .bridging) (hmore : p.remaining ≠ some 0)
    (hroom : p.bridgeOffset + p.requestSize ≤ p.options.deepPagingLimit) :
    let out := ask ScriptedStore.store .bridge (p.bridgeRequest m) (p.receiveBridge m) p session
    Serves memory p out.1 out.2.1 out.2.2 := by
  have hword := h.deepPagingLimit_lt
  have hanswer := @Between.answer p memory h p.bridgeOffset (m.clause p.options.timeField)
    (Clause.Plain.term _ _).2 (by omega) hlimit
  rcases hanswer with hanswer | ⟨hwindow, herror⟩
  · rw [h.answer_bridge (h.writable hm.toReaches)] at hanswer
    exact .of_ask hsession
      (.inl ⟨_, hanswer, h.takesPart hm hlast hstate hmore (p.takesPart m _)⟩)
  · refine .of_ask hsession (.inr ⟨herror, fun _ hroomy => ?_⟩)
    have := hroomy.bridge_le hm
    omega

theorem Between.paging {documents : List Members} (h : p.Between documents)
    (hstate : p.state ≠ .bridging) :
    ({ p with state := .paging } : Pager).Between documents where
  __ := h
  not_done := by simp
  offset := fun _ => h.offset hstate
  bridge := fun hbridging => nomatch hbridging

theorem Serves.of_paging {result : Except ReadError Batch} {p' : Pager}
    {session' : Session ScriptedStore} (hstate : p.state ≠ .bridging)
    (h : Serves memory { p with state := .paging } result p' session') :
    Serves memory p result p' session' where
  answers := h.answers
  delivers := fun batch hbatch =>
    let hdelivers := h.delivers batch hbatch
    { follows :=
        ⟨hdelivers.follows.indices, hdelivers.follows.filter, hdelivers.follows.options,
          hdelivers.follows.direction⟩
      rows := hdelivers.rows
      live := hdelivers.live
      subset := hdelivers.subset
      progress := hdelivers.progress.imp_right (·.imp_right fun hbridge => ⟨hstate, hbridge.2⟩) }
  roomy := fun hclear hroomy => h.roomy ⟨hclear.plain, hclear.dated, hclear.fetchSize_pos⟩
    ⟨hroomy.page, hroomy.ties⟩

theorem Between.takesTurn (h : p.Between (p.searched memory)) (hsession : session.Answers memory)
    (hlimit : memory.maxResultWindow < Word.unsignedLimit)
    {out : Except ReadError Batch × Pager × Session ScriptedStore}
    (hturn : TakesTurn ScriptedStore.store p session out) :
    Serves memory p out.1 out.2.1 out.2.2 := by
  cases hturn with
  | done hdone => exact absurd hdone h.not_done
  | ended _ hend =>
      have howed : p.owed (p.searched memory) = [] := by
        rcases hend with hremaining | hempty
        · rw [owed, clip, hremaining]
          exact List.take_zero
        · rw [owed, within_of_isEmpty hempty, List.drop_nil]
          exact clip_eq_self fun n _ => Nat.zero_le n
      have hdelivers : Delivers (p.searched memory) p ⟨[], true⟩ { p with state := .done } := by
        refine ⟨⟨rfl, rfl, rfl, rfl⟩, ?_, ?_, fun _ hmem => hmem, .inl rfl⟩
        · rw [howed]
          simp
        · rintro ⟨⟩
      exact .of_receives hsession hdelivers.receives
  | page hmore hstate paging =>
      have hstate : p.state ≠ .bridging := by rcases hstate with hstate | hstate <;> simp [hstate]
      subst paging
      have hserves := (h.paging hstate).askPage hsession hlimit rfl fun hzero => hmore (.inl hzero)
      exact hserves.of_paging hstate
  | lost _ hstate hlast =>
      obtain ⟨m, hm, -⟩ := h.bridge hstate
      rw [hlast] at hm
      cases hm
  | deep _ hstate _ hover =>
      obtain ⟨m, -, hm⟩ := h.bridge hstate
      refine .of_error hsession fun _ hroomy => ?_
      have := hroomy.bridge_le hm
      omega
  | @part hmore hstate m hlast hroom =>
      obtain ⟨m', hm', hbridges⟩ := h.bridge hstate
      obtain rfl : m = m' := Option.some.inj (hlast.symm.trans hm')
      exact h.askPart (hsession.add .bridgeRounds 1) hlimit hbridges hlast hstate
        (fun hzero => hmore (.inl hzero)) hroom

theorem Between.turn (h : p.Between (p.searched memory)) (hsession : session.Answers memory)
    (hlimit : memory.maxResultWindow < Word.unsignedLimit) :
    ∃ result p' session', turn ScriptedStore.store p session = (result, p', session') ∧
      Serves memory p result p' session' :=
  ⟨_, _, _, rfl, h.takesTurn hsession hlimit (Pager.takesTurn ScriptedStore.store p session)⟩

/-! ## Fetches -/

/-- A turn without rows leaves all that was owed. -/
theorem Delivers.trans {documents : List Members} {batch : Batch} {p' p'' : Pager}
    (h : Delivers documents p ⟨[], false⟩ p') (h' : Delivers documents p' batch p'')
    (hprogress : batch.eof = true ∨ batch.rows ≠ []) : Delivers documents p batch p'' where
  follows :=
    ⟨h'.follows.indices.trans h.follows.indices, h'.follows.filter.trans h.follows.filter,
      h'.follows.options.trans h.follows.options, h'.follows.direction.trans h.follows.direction⟩
  rows := by
    have hrows := h'.rows
    rw [h.follows.options, h.follows.direction] at hrows
    rw [h.rows]
    simpa using hrows
  live := h'.live
  subset := fun document hmem => h.subset document (h'.subset document hmem)
  progress := hprogress.imp_right .inl

/-- What is served behind a turn without rows is served from before it. -/
theorem Serves.behind {result : Except ReadError Batch} {p' p'' : Pager}
    {session'' : Session ScriptedStore}
    (hdelivers : Delivers (p.searched memory) p ⟨[], false⟩ p')
    (h : Serves memory p' result p'' session'')
    (hprogress : ∀ batch, result = .ok batch → batch.eof = true ∨ batch.rows ≠ []) :
    Serves memory p result p'' session'' where
  answers := h.answers
  delivers := fun batch hbatch => by
    have hdelivers' := h.delivers batch hbatch
    rw [hdelivers.follows.searched_eq] at hdelivers'
    exact hdelivers.trans hdelivers' (hprogress batch hbatch)
  roomy := fun hclear hroomy => by
    have hclear' := hclear.follows hdelivers.follows
    rw [← hdelivers.follows.searched_eq] at hclear'
    exact h.roomy hclear' (hroomy.follows hdelivers.follows hdelivers.subset)

/-- A fetch takes two turns at most: one to find that a time must be bridged, and one for rows. -/
theorem Between.fetchWithin (h : p.Between (p.searched memory)) (hsession : session.Answers memory)
    (hlimit : memory.maxResultWindow < Word.unsignedLimit) (searches : Nat) :
    ∃ result p' session',
      fetchWithin ScriptedStore.store (searches + 2) p session = (result, p', session') ∧
        Serves memory p result p' session' ∧
        ∀ batch, result = .ok batch → batch.eof = true ∨ batch.rows ≠ [] := by
  obtain ⟨result, p', session', hturn, hserves⟩ := h.turn hsession hlimit
  unfold Pager.fetchWithin
  rw [hturn]
  cases result with
  | error e => exact ⟨_, _, _, rfl, hserves, fun _ hbatch => nomatch hbatch⟩
  | ok batch =>
      have hdelivers := hserves.delivers batch rfl
      by_cases hlast : (batch.eof || !batch.rows.isEmpty) = true
      · simp only [hlast, ↓reduceIte]
        refine ⟨_, _, _, rfl, hserves, ?_⟩
        rintro _ ⟨⟩
        simpa using hlast
      · simp only [hlast, Bool.false_eq_true, ↓reduceIte]
        obtain ⟨rows, eof⟩ := batch
        obtain ⟨rfl, rfl⟩ : eof = false ∧ rows = [] := by simpa using hlast
        have hbridging : p'.state = .bridging := by
          rcases hdelivers.progress with hend | hrows | hbridge
          · cases hend
          · exact absurd rfl hrows
          · exact hbridge.2
        have hlive := hdelivers.live rfl
        rw [← hdelivers.follows.searched_eq] at hlive
        obtain ⟨result, p'', session'', hturn, hserves'⟩ := hlive.turn hserves.answers hlimit
        -- A pager that bridges either has rows or is done, so there is no third turn.
        have hprogress : ∀ batch, result = .ok batch → batch.eof = true ∨ batch.rows ≠ [] :=
          fun batch hbatch => by
            rcases (hserves'.delivers batch hbatch).progress with hend | hrows | hbridge
            · exact .inl hend
            · exact .inr hrows
            · exact absurd hbridging hbridge.1
        refine ⟨result, p'', session'', ?_, .behind hdelivers hserves' hprogress, hprogress⟩
        unfold Pager.fetchWithin
        rw [hturn]
        cases result with
        | error e => rfl
        | ok batch =>
            have hlast : (batch.eof || !batch.rows.isEmpty) = true := by
              simpa using hprogress batch rfl
            simp only [hlast, ↓reduceIte]

theorem Between.fetch (h : p.Between (p.searched memory)) (hsession : session.Answers memory)
    (hlimit : memory.maxResultWindow < Word.unsignedLimit) :
    ∃ result p' session',
      fetch ScriptedStore.store p session = (result, p', session') ∧
        Serves memory p result p' session' ∧
        ∀ batch, result = .ok batch → batch.eof = true ∨ batch.rows ≠ [] := by
  obtain ⟨searches, hsearches⟩ : ∃ searches, Word.unsignedLimit = searches + 2 :=
    ⟨Word.unsignedLimit - 2, by decide⟩
  rw [Pager.fetch, hsearches]
  exact h.fetchWithin hsession hlimit searches

/-! ## Draining -/

/-- The rows of a drained pager are those that were owed. Where the read is clear, there is an error
only for want of room or of fetches. -/
theorem Between.collect (h : p.Between (p.searched memory)) (hsession : session.Answers memory)
    (hlimit : memory.maxResultWindow < Word.unsignedLimit) (fetches : Nat) :
    ∃ stream session',
      Stream.collect (Pager.fetch ScriptedStore.store) fetches none p session = (stream, session') ∧
        (stream.error = none →
          (stream.batches.map (arrange p.direction)).flatten =
            (p.owed (p.searched memory)).map (row p.options.timeField)) ∧
        (p.Clear (p.searched memory) → p.Roomy memory →
          (p.owed (p.searched memory)).length < fetches → stream.error = none) := by
  induction fetches generalizing p session with
  | zero => exact ⟨_, _, rfl, (nomatch ·), fun _ _ hlt => absurd hlt (Nat.not_lt_zero _)⟩
  | succ fetches ih =>
      obtain ⟨result, p', session', hfetch, hserves, hprogress⟩ := h.fetch hsession hlimit
      unfold Stream.collect
      simp only [reduceCtorEq, ↓reduceIte, hfetch]
      cases result with
      | error e =>
          refine ⟨_, _, rfl, (nomatch ·), fun hclear hroomy => ?_⟩
          obtain ⟨_, hbatch⟩ := hserves.roomy hclear hroomy
          cases hbatch
      | ok batch =>
          obtain ⟨rows, eof⟩ := batch
          have hdelivers := hserves.delivers _ rfl
          have hrows := hdelivers.rows
          cases eof with
          | true =>
              simp only [↓reduceIte, List.append_nil] at hrows ⊢
              cases rows with
              | nil => exact ⟨_, _, rfl, fun _ => by simp [hrows], fun _ _ _ => rfl⟩
              | cons row rows => exact ⟨_, _, rfl, fun _ => by simp [hrows], fun _ _ _ => rfl⟩
          | false =>
              have hsearched : p'.searched memory = p.searched memory :=
                hdelivers.follows.searched_eq
              have hne : rows ≠ [] := (hprogress _ rfl).resolve_left (by simp)
              have hlive := hdelivers.live rfl
              rw [← hsearched] at hlive
              obtain ⟨rest, session'', hrest, hbatches, hend⟩ := ih hlive hserves.answers
              rw [hsearched, hdelivers.follows.direction, hdelivers.follows.options] at hbatches
              rw [hsearched] at hend
              have hisEmpty : rows.isEmpty = false := by simpa using hne
              simp only [hisEmpty, Bool.false_eq_true, ↓reduceIte, Option.map_none, hrest] at hrows ⊢
              refine ⟨_, _, rfl, fun herror => ?_, fun hclear hroomy hlt => ?_⟩
              · rw [hrows, List.map_cons, List.flatten_cons, hbatches herror]
              · refine hend (hclear.follows hdelivers.follows)
                  (hroomy.follows hdelivers.follows hdelivers.subset) ?_
                have hlength := congrArg List.length hrows
                rw [List.length_append, length_arrange, List.length_map, List.length_map] at hlength
                have := List.length_pos_iff.mpr hne
                omega

/-- A clear read between two turns. -/
structure Live (p : Pager) (documents : List Members) : Prop
    extends Between p documents, Clear p documents

/-- A clear read fails only for want of room or of fetches. -/
theorem Live.collect (h : p.Live (p.searched memory)) (hsession : session.Answers memory)
    (hlimit : memory.maxResultWindow < Word.unsignedLimit) (fetches : Nat) :
    ∃ stream session',
      Stream.collect (Pager.fetch ScriptedStore.store) fetches none p session = (stream, session') ∧
        (stream.error = none →
          (stream.batches.map (arrange p.direction)).flatten =
            (p.owed (p.searched memory)).map (row p.options.timeField)) ∧
        (p.Roomy memory → (p.owed (p.searched memory)).length < fetches → stream.error = none) := by
  obtain ⟨stream, session', hcollect, hrows, hend⟩ :=
    h.toBetween.collect hsession hlimit fetches
  exact ⟨stream, session', hcollect, hrows, hend h.toClear⟩

end Sluice.Pager
