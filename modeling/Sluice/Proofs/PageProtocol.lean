import Sluice.Proofs.Turns

/-!
What a pager keeps to whatever a store answers, errors and pages that contradict each other
included. It counts the rows that it hands over and stops at its limit, each of its searches asks
for some rows and no more than it may, a batch that is not the last has rows, and behind the last
batch nothing is searched.
-/
namespace Sluice

variable {σ : Type}

/-! ## Searches on record -/

/-- A store that also keeps what it is asked, the last search first. -/
def Store.recorded (store : Store σ) : Store (σ × List SearchRequest) where
  search state request :=
    let (answer, next) := store.search state.1 request
    (answer, next, request :: state.2)

/-- All searches of a recorded session so far, the last one first. -/
def Session.asked (session : Session (σ × List SearchRequest)) : List SearchRequest :=
  session.store.2

@[simp] theorem Session.asked_add (session : Session (σ × List SearchRequest)) (counter : Counter)
    (n : Nat) : (session.add counter n).asked = session.asked := rfl

theorem Store.asked_searchOrEmpty (store : Store σ) (operation : Operation)
    (request : SearchRequest) (session : Session (σ × List SearchRequest)) :
    (store.recorded.searchOrEmpty operation request session).2.asked =
      request :: session.asked := by
  simp only [searchOrEmpty, recorded]
  cases (store.search session.store.1 request).1 with
  | ok response => rfl
  | error e => rfl

/-- What a store refuses is no fault of a pager. -/
theorem Store.absorb_ne {e : StoreError} {error : ReadError} (h : absorb e = .error error) :
    error ≠ .bridgeWithoutInstant ∧ error ≠ .emptyPage := by
  unfold absorb at h
  split at h <;> cases h <;> exact ⟨(nomatch ·), (nomatch ·)⟩

theorem Store.searchOrEmpty_ne {store : Store σ} {operation : Operation} {request : SearchRequest}
    {session : Session σ} {e : ReadError}
    (h : (store.searchOrEmpty operation request session).1 = .error e) :
    e ≠ .bridgeWithoutInstant ∧ e ≠ .emptyPage := by
  unfold searchOrEmpty at h
  cases hanswer : (store.search session.store request).1 with
  | ok response =>
      simp only [hanswer] at h
      cases h
  | error cause =>
      simp only [hanswer] at h
      exact absorb_ne h

namespace Pager

/-! ## Calls -/

/-- The results of `calls` fetches, one after the other whatever they give, and the pager and the
session behind them. -/
def fetches (store : Store σ) :
    Nat → Pager → Session σ → List (Except ReadError Batch) × Pager × Session σ
  | 0, p, session => ([], p, session)
  | calls + 1, p, session =>
    let (result, p, session) := fetch store p session
    let (results, p, session) := fetches store calls p session
    (result :: results, p, session)

/-- The rows that a fetch hands over. -/
def handed : Except ReadError Batch → List Row
  | .ok batch => batch.rows
  | .error _ => []

/-- A query that a pager may send: for the first rows of a time range, or for rows of one instant
at an offset that the limit on deep paging allows. -/
structure Suits (p : Pager) (q : Query) : Prop where
  size_pos : 0 < q.size
  size_le : q.size ≤ p.options.fetchSize
  size_le_remaining : ∀ n, p.remaining = some n → q.size ≤ n
  kind : (q.start = 0 ∧ ∃ range : TimeRange,
      q.clauses = range.clause p.options.timeField :: p.filter.toList) ∨
    (q.start + q.size ≤ p.options.deepPagingLimit ∧ ∃ instant : Moment,
      q.clauses = instant.clause p.options.timeField :: p.filter.toList)

def Asks (p : Pager) (request : SearchRequest) : Prop :=
  ∃ q : Query, p.Suits q ∧ request = ⟨p.indices, q.toJson⟩

/-- The same read, with as many rows handed over. -/
structure Abreast (q p : Pager) : Prop extends Follows q p where
  limit : q.limit = p.limit
  emitted : q.emitted = p.emitted

/-- What holds between two turns against any store. -/
structure Steady (p : Pager) : Prop where
  fetchSize_pos : 0 < p.options.fetchSize
  emitted_le : ∀ n, p.limit = some n → p.emitted ≤ n
  bridging : p.state = .bridging → p.bridging = true ∧ ∃ m, p.lastSeen = some m

/-- What a result and the pager behind it come to, against any store. -/
structure Advances (p : Pager) (result : Except ReadError Batch) (p' : Pager) : Prop where
  follows : p'.Follows p
  limit : p'.limit = p.limit
  steady : p'.Steady
  emitted : p'.emitted = p.emitted + (handed result).length
  instant : result ≠ .error .bridgeWithoutInstant
  page : result ≠ .error .emptyPage
  ended : ∀ batch, result = .ok batch → (batch.eof = true ↔ p'.state = .done)

/-- The searches between two sessions are such as a pager may send. -/
def Sends (p : Pager) (session session' : Session (σ × List SearchRequest)) : Prop :=
  ∃ asked, session'.asked = asked ++ session.asked ∧ ∀ request ∈ asked, p.Asks request

variable {p p' q : Pager} {session : Session (σ × List SearchRequest)}

/-! ## Handing rows over -/

theorem length_clip_le {α : Type} (rows : List α) {n : Nat} (h : p.remaining = some n) :
    (p.clip rows).length ≤ n := by
  rw [clip, h]
  exact List.length_take_le n rows

theorem emit_clip (p : Pager) (rows : List Keyed) : p.emit (p.clip rows) = p.emit rows := by
  unfold emit clip
  cases p.remaining with
  | none => rfl
  | some n => simp only [List.take_take, Nat.min_self]

theorem Steady.credit (h : p.Steady) {n : Nat} (hn : ∀ k, p.remaining = some k → n ≤ k) :
    (p.credit n).Steady where
  fetchSize_pos := h.fetchSize_pos
  emitted_le := fun limit hlimit => by
    have hlimit : p.limit = some limit := hlimit
    have hle := h.emitted_le limit hlimit
    have hroom := hn (limit - p.emitted) (by rw [remaining, hlimit]; rfl)
    change p.emitted + n ≤ limit
    omega
  bridging := fun hstate => by
    refine h.bridging ?_
    simp only [Pager.credit] at hstate
    split at hstate
    · cases hstate
    · exact hstate

/-- A pager that has taken an answer in hands its rows over. -/
theorem Steady.advances_emit (hq : q.Steady) (h : q.Abreast p) (rows : List Keyed) :
    p.Advances (.ok (q.emit rows).1) (q.emit rows).2 := by
  have hfits : ∀ n, q.remaining = some n → (q.clip rows).length ≤ n :=
    fun _ => length_clip_le rows
  rw [← emit_clip, emit_eq hfits]
  refine ⟨⟨h.indices, h.filter, h.options, h.direction⟩, h.limit, hq.credit hfits, ?_,
    (nomatch ·), (nomatch ·), ?_⟩
  · rw [handed, length_arrange, List.length_map]
    exact congrArg (· + _) h.emitted
  · rintro _ ⟨⟩
    exact decide_eq_true_iff

theorem Steady.advances_error (hp : p'.Steady) (h : p'.Abreast p) {e : ReadError}
    (hinstant : e ≠ .bridgeWithoutInstant) (hpage : e ≠ .emptyPage) :
    p.Advances (.error e) p' where
  follows := h.toFollows
  limit := h.limit
  steady := hp
  emitted := h.emitted
  instant := fun h => hinstant (Except.error.inj h)
  page := fun h => hpage (Except.error.inj h)
  ended := (nomatch ·, ·)

theorem Abreast.refl (p : Pager) : p.Abreast p := ⟨⟨rfl, rfl, rfl, rfl⟩, rfl, rfl⟩

/-- A document that cannot be keyed has no time, or one that cannot be read. -/
theorem exists_of_mapM_keyed {timeField : String} {hits : List Members} {e : ReadError}
    (h : hits.mapM (keyed timeField) = .error e) :
    e = .rowWithoutTime timeField ∨ ∃ cause, e = .rowTime cause := by
  obtain ⟨document, -, h⟩ := exists_of_mapM_error h
  unfold keyed at h
  split at h
  · cases h
    exact .inl rfl
  · split at h
    · cases h
      exact .inr ⟨_, rfl⟩
    · cases h

/-! ## Answers -/

theorem Steady.takesPage (h : p.Steady) (hpaging : p.state = .paging) (hpos : 0 < p.requestSize)
    {response : Response} {result : Except ReadError Batch}
    (htakes : TakesPage p response result p') : p.Advances result p' := by
  have hleft : p.state ≠ .bridging := by simp [hpaging]
  cases htakes with
  | unreadable hits =>
      rcases exists_of_mapM_keyed hits with rfl | ⟨cause, rfl⟩
      · exact h.advances_error (.refl p) (nomatch ·) (nomatch ·)
      · exact h.advances_error (.refl p) (nomatch ·) (nomatch ·)
  | last _ _ emit =>
      have hdone : ({ p with state := .done } : Pager).Steady :=
        ⟨h.fetchSize_pos, h.emitted_le, (nomatch ·)⟩
      subst emit
      exact hdone.advances_emit (p := p) ⟨⟨rfl, rfl, rfl, rfl⟩, rfl, rfl⟩ _
  | miscounted => exact h.advances_error (.refl p) (nomatch ·) (nomatch ·)
  | full _ _ emit =>
      subst emit
      exact h.advances_emit (.refl p) _
  | blank hwhole => exact absurd hwhole.size (Nat.ne_of_lt hpos)
  | tied =>
      refine ⟨⟨rfl, rfl, rfl, rfl⟩, rfl, ⟨h.fetchSize_pos, h.emitted_le, fun _ => ⟨rfl, _, rfl⟩⟩,
        rfl, (nomatch ·), (nomatch ·), ?_⟩
      rintro _ ⟨⟩
      simp
  | @stuck _ _ last =>
      have hseen : ({ p with lastSeen := some last.1 } : Pager).Steady :=
        ⟨h.fetchSize_pos, h.emitted_le, fun hstate => absurd hstate hleft⟩
      exact hseen.advances_error (p := p) ⟨⟨rfl, rfl, rfl, rfl⟩, rfl, rfl⟩ (nomatch ·) (nomatch ·)
  | @advanced _ _ last _ _ range _ _ emit =>
      have hranged : ({ p with lastSeen := some last.1, range } : Pager).Steady :=
        ⟨h.fetchSize_pos, h.emitted_le, fun hstate => absurd hstate hleft⟩
      subst emit
      exact hranged.advances_emit (p := p) ⟨⟨rfl, rfl, rfl, rfl⟩, rfl, rfl⟩ _

theorem Advances.closed {out : Batch × Pager} (h : p.Advances (.ok out.1) out.2) :
    p.Advances (.ok (closed out).1) (closed out).2 := by
  unfold Pager.closed
  split
  · refine ⟨⟨h.follows.indices, h.follows.filter, h.follows.options, h.follows.direction⟩, h.limit,
      ⟨h.steady.fetchSize_pos, h.steady.emitted_le, (nomatch ·)⟩, h.emitted, (nomatch ·),
      (nomatch ·), ?_⟩
    rintro _ ⟨⟩
    simp
  · exact h

theorem Steady.takesPart (h : p.Steady) {instant : Moment} {response : Response}
    {result : Except ReadError Batch} (htakes : TakesPart p instant response result p') :
    p.Advances result p' := by
  cases htakes with
  | unreadable hits =>
      rcases exists_of_mapM_keyed hits with rfl | ⟨cause, rfl⟩
      · exact h.advances_error (.refl p) (nomatch ·) (nomatch ·)
      · exact h.advances_error (.refl p) (nomatch ·) (nomatch ·)
  | stuck => exact h.advances_error (.refl p) (nomatch ·) (nomatch ·)
  | @last rows _ _ range _ _ emit =>
      have hbehind : ({ p with range, bridging := false, bridgeOffset := 0, state := .paging } :
          Pager).Steady := ⟨h.fetchSize_pos, h.emitted_le, (nomatch ·)⟩
      subst emit
      exact (hbehind.advances_emit (p := p) ⟨⟨rfl, rfl, rfl, rfl⟩, rfl, rfl⟩ rows).closed
  | miscounted => exact h.advances_error (.refl p) (nomatch ·) (nomatch ·)
  | @part rows _ _ _ _ emit =>
      have hfurther : ({ p with bridgeOffset := p.bridgeOffset + rows.length } : Pager).Steady :=
        ⟨h.fetchSize_pos, h.emitted_le, h.bridging⟩
      subst emit
      exact (hfurther.advances_emit (p := p) ⟨⟨rfl, rfl, rfl, rfl⟩, rfl, rfl⟩ rows).closed

/-! ## Turns -/

theorem Advances.after {result : Except ReadError Batch} (h : q.Advances result p')
    (hq : q.Abreast p) : p.Advances result p' where
  follows :=
    ⟨h.follows.indices.trans hq.indices, h.follows.filter.trans hq.filter,
      h.follows.options.trans hq.options, h.follows.direction.trans hq.direction⟩
  limit := h.limit.trans hq.limit
  steady := h.steady
  emitted := by rw [h.emitted, hq.emitted]
  instant := h.instant
  page := h.page
  ended := h.ended

theorem Abreast.remaining (h : q.Abreast p) : q.remaining = p.remaining := by
  rw [Pager.remaining, Pager.remaining, h.limit, h.emitted]

theorem Asks.after {request : SearchRequest} (h : q.Asks request) (hq : q.Abreast p) :
    p.Asks request := by
  obtain ⟨query, hsuits, rfl⟩ := h
  rw [hq.indices]
  refine ⟨query, ⟨hsuits.size_pos, ?_, ?_, ?_⟩, rfl⟩
  · exact hq.options ▸ hsuits.size_le
  · exact hq.remaining ▸ hsuits.size_le_remaining
  · have hkind := hsuits.kind
    rwa [hq.options, hq.filter] at hkind

theorem Sends.refl (p : Pager) (session : Session (σ × List SearchRequest)) :
    p.Sends session session := ⟨[], rfl, fun _ h => nomatch h⟩

theorem Sends.trans {session' session'' : Session (σ × List SearchRequest)}
    (h : p.Sends session session') (h' : q.Sends session' session'') (hq : q.Abreast p) :
    p.Sends session session'' := by
  obtain ⟨asked, hasked, hasks⟩ := h
  obtain ⟨asked', hasked', hasks'⟩ := h'
  refine ⟨asked' ++ asked, by rw [hasked', hasked, List.append_assoc], fun request hmem => ?_⟩
  rcases List.mem_append.mp hmem with hmem | hmem
  · exact (hasks' request hmem).after hq
  · exact hasks request hmem

theorem Asks.sends {request : SearchRequest} {session' : Session (σ × List SearchRequest)}
    (h : p.Asks request) (hasked : session'.asked = request :: session.asked) :
    p.Sends session session' :=
  ⟨[request], hasked, fun _ hmem => List.mem_singleton.mp hmem ▸ h⟩

@[simp] theorem asked_countRows (operation : Operation) (result : Except ReadError Batch)
    (session : Session (σ × List SearchRequest)) :
    (countRows operation result session).asked = session.asked := by
  cases result <;> rfl

theorem asks_pageRequest (hpos : 0 < p.requestSize) : p.Asks p.pageRequest :=
  ⟨p.query 0 (p.range.clause p.options.timeField),
    ⟨hpos, requestSize_le p, fun _ => requestSize_le_remaining, .inl ⟨rfl, p.range, rfl⟩⟩, rfl⟩

theorem asks_bridgeRequest (hpos : 0 < p.requestSize) (instant : Moment)
    (hdeep : p.bridgeOffset + p.requestSize ≤ p.options.deepPagingLimit) :
    p.Asks (p.bridgeRequest instant) :=
  ⟨p.query p.bridgeOffset (instant.clause p.options.timeField),
    ⟨hpos, requestSize_le p, fun _ => requestSize_le_remaining, .inr ⟨hdeep, instant, rfl⟩⟩, rfl⟩

theorem Steady.ask (h : p.Steady) {request : SearchRequest} (hasks : p.Asks request)
    {receive : Response → Except ReadError Batch × Pager}
    (hreceive : ∀ response, p.Advances (receive response).1 (receive response).2)
    (store : Store σ) (operation : Operation) (session : Session (σ × List SearchRequest)) :
    let out := ask store.recorded operation request receive p session
    p.Advances out.1 out.2.1 ∧ p.Sends session out.2.2 := by
  have hasked := store.asked_searchOrEmpty operation request session
  have herror := @Store.searchOrEmpty_ne _ store.recorded operation request session
  unfold Pager.ask
  generalize store.recorded.searchOrEmpty operation request session = answered at *
  obtain ⟨e | response, session'⟩ := answered
  · obtain ⟨hinstant, hpage⟩ := herror rfl
    exact ⟨h.advances_error (.refl p) hinstant hpage, hasks.sends hasked⟩
  · refine ⟨hreceive response, hasks.sends ?_⟩
    rw [asked_countRows]
    exact hasked

theorem Steady.takesTurn (h : p.Steady) {store : Store σ}
    {out : Except ReadError Batch × Pager × Session (σ × List SearchRequest)}
    (hturn : TakesTurn store.recorded p session out) :
    p.Advances out.1 out.2.1 ∧ p.Sends session out.2.2 := by
  have hpos : ¬p.Exhausted → 0 < p.requestSize :=
    fun hmore => requestSize_pos h.fetchSize_pos fun hzero => hmore (.inl hzero)
  cases hturn with
  | done hdone =>
      refine ⟨⟨(Abreast.refl p).toFollows, rfl, h, rfl, (nomatch ·), (nomatch ·), ?_⟩,
        .refl p session⟩
      rintro _ ⟨⟩
      simp [hdone]
  | ended =>
      refine ⟨⟨⟨rfl, rfl, rfl, rfl⟩, rfl, ⟨h.fetchSize_pos, h.emitted_le, (nomatch ·)⟩, rfl,
        (nomatch ·), (nomatch ·), ?_⟩, .refl p session⟩
      rintro _ ⟨⟩
      simp
  | @page hmore _ q paging =>
      have hq : q.Steady := paging ▸ ⟨h.fetchSize_pos, h.emitted_le, (nomatch ·)⟩
      have habreast : q.Abreast p := paging ▸ ⟨⟨rfl, rfl, rfl, rfl⟩, rfl, rfl⟩
      have hsize : 0 < q.requestSize := paging ▸ hpos hmore
      obtain ⟨hadvances, asked, hasked, hasks⟩ := hq.ask (asks_pageRequest hsize)
        (fun response => hq.takesPage (paging ▸ rfl) hsize (q.takesPage response)) store .page
        session
      exact ⟨hadvances.after habreast, asked, hasked,
        fun request hmem => (hasks request hmem).after habreast⟩
  | lost _ hstate hlast =>
      obtain ⟨-, m, hm⟩ := h.bridging hstate
      rw [hlast] at hm
      cases hm
  | deep => exact ⟨h.advances_error (.refl p) (nomatch ·) (nomatch ·), .refl p session⟩
  | @part hmore _ m _ hroom =>
      exact h.ask (asks_bridgeRequest (hpos hmore) m hroom)
        (fun response => h.takesPart (p.takesPart m response)) store .bridge
        (session.add .bridgeRounds 1)

/-! ## Fetches -/

theorem Steady.fetchWithin (h : p.Steady) (store : Store σ)
    (session : Session (σ × List SearchRequest)) (searches : Nat) :
    let out := fetchWithin store.recorded searches p session
    p.Advances out.1 out.2.1 ∧ p.Sends session out.2.2 ∧
      ∀ batch, out.1 = .ok batch → batch.eof = true ∨ batch.rows ≠ [] := by
  induction searches generalizing p session with
  | zero =>
      exact ⟨h.advances_error (.refl p) (nomatch ·) (nomatch ·), .refl p session, (nomatch ·, ·)⟩
  | succ searches ih =>
      obtain ⟨hadvances, hsends⟩ := h.takesTurn (Pager.takesTurn store.recorded p session)
      unfold Pager.fetchWithin
      generalize Pager.turn store.recorded p session = out at *
      obtain ⟨e | ⟨rows, eof⟩, p', session'⟩ := out
      · exact ⟨hadvances, hsends, (nomatch ·, ·)⟩
      · dsimp only
        split
        · rename_i hlast
          refine ⟨hadvances, hsends, ?_⟩
          rintro _ ⟨⟩
          simpa using hlast
        · rename_i hmore
          -- Nothing was handed over, so that the bounds of the next search are still those of `p`.
          obtain ⟨rfl, rfl⟩ : eof = false ∧ rows = [] := by simpa using hmore
          have habreast : p'.Abreast p := ⟨hadvances.follows, hadvances.limit, hadvances.emitted⟩
          obtain ⟨hnext, hsends', hrows⟩ := ih hadvances.steady session'
          exact ⟨hnext.after habreast, hsends.trans hsends' habreast, hrows⟩

theorem fetch_done (store : Store σ) (session : Session σ) (h : p.state = .done) :
    fetch store p session = (.ok ⟨[], true⟩, p, session) := by
  have hturn : turn store p session = (.ok ⟨[], true⟩, p, session) := by
    unfold turn
    rw [settle_of_done h]
    simp only [h]
  rw [fetch, Word.unsignedLimit, fetchWithin, hturn]
  rfl

/-- What holds of a pager behind the results of its fetches. -/
structure Protocol (start : Pager) (results : List (Except ReadError Batch)) (p : Pager) : Prop
    extends Steady p where
  follows : p.Follows start
  limit : p.limit = start.limit
  emitted : p.emitted = (results.flatMap handed).length
  instant : .error .bridgeWithoutInstant ∉ results
  page : .error .emptyPage ∉ results
  rows : ∀ batch, .ok batch ∈ results → batch.eof = false → batch.rows ≠ []
  ended : ∀ batch, .ok batch ∈ results → batch.eof = true → p.state = .done

theorem protocol_start (start : Pager) (hsize : 0 < start.options.fetchSize)
    (hemitted : start.emitted = 0) (hstate : start.state = .idle) : Protocol start [] start where
  fetchSize_pos := hsize
  emitted_le := fun n _ => hemitted ▸ Nat.zero_le n
  bridging := fun hbridging => by
    rw [hstate] at hbridging
    cases hbridging
  follows := (Abreast.refl start).toFollows
  limit := rfl
  emitted := hemitted
  instant := List.not_mem_nil
  page := List.not_mem_nil
  rows := fun _ hmem => nomatch hmem
  ended := fun _ hmem => nomatch hmem

/-- What one fetch adds to the results. -/
theorem Protocol.advance {start : Pager} {results : List (Except ReadError Batch)}
    {result : Except ReadError Batch} (h : Protocol start results p)
    (hadvances : p.Advances result p')
    (hrows : ∀ batch, result = .ok batch → batch.eof = true ∨ batch.rows ≠ [])
    (hdone : p.state = .done → p' = p) : Protocol start (results ++ [result]) p' where
  toSteady := hadvances.steady
  follows :=
    ⟨hadvances.follows.indices.trans h.follows.indices,
      hadvances.follows.filter.trans h.follows.filter,
      hadvances.follows.options.trans h.follows.options,
      hadvances.follows.direction.trans h.follows.direction⟩
  limit := hadvances.limit.trans h.limit
  emitted := by
    rw [hadvances.emitted, h.emitted, List.flatMap_append, List.length_append,
      List.flatMap_singleton]
  instant := by
    simpa using ⟨h.instant, hadvances.instant.symm⟩
  page := by
    simpa using ⟨h.page, hadvances.page.symm⟩
  rows := fun batch hmem heof => by
    rcases List.mem_append.mp hmem with hmem | hmem
    · exact h.rows batch hmem heof
    · rcases hrows batch (List.mem_singleton.mp hmem).symm with hend | hne
      · rw [heof] at hend
        cases hend
      · exact hne
  ended := fun batch hmem heof => by
    rcases List.mem_append.mp hmem with hmem | hmem
    · have hstate := h.ended batch hmem heof
      rw [hdone hstate]
      exact hstate
    · exact (hadvances.ended batch (List.mem_singleton.mp hmem).symm).mp heof

theorem Protocol.fetches {start : Pager} {results : List (Except ReadError Batch)}
    (h : Protocol start results p) (store : Store σ) (session : Session (σ × List SearchRequest))
    (calls : Nat) :
    let run := fetches store.recorded calls p session
    Protocol start (results ++ run.1) run.2.1 := by
  induction calls generalizing p results session with
  | zero => simpa only [Pager.fetches, List.append_nil] using h
  | succ calls ih =>
      obtain ⟨hadvances, -, hrows⟩ := h.toSteady.fetchWithin store session Word.unsignedLimit
      have hnext := h.advance hadvances hrows fun hdone =>
        congrArg (·.2.1) (fetch_done store.recorded session hdone)
      have hrest := ih hnext (fetch store.recorded p session).2.2
      dsimp only at hrest
      rw [List.append_assoc] at hrest
      exact hrest

variable {patterns : List String} {range : TimeRange} {options : PageOptions}
  {filter : Option Json} {direction : Direction} {limit : Option Nat}

/-- Any number of fetches, and one more, against any store. -/
theorem fetches_protocol (store : Store σ) (state : σ) (counters : Counters)
    (hsize : 0 < options.fetchSize) (calls : Nat) :
    let start := Pager.start patterns range options filter direction limit
    let run := fetches store.recorded calls start ⟨(state, []), counters⟩
    let next := fetch store.recorded run.2.1 run.2.2
    Protocol start run.1 run.2.1 ∧ run.2.1.Sends run.2.2 next.2.2 ∧
      (run.2.1.state = .done → next = (.ok ⟨[], true⟩, run.2.1, run.2.2)) := by
  intro start run next
  have hprotocol : Protocol start run.1 run.2.1 :=
    (protocol_start start hsize rfl rfl).fetches store ⟨(state, []), counters⟩ calls
  exact ⟨hprotocol, (hprotocol.toSteady.fetchWithin store run.2.2 Word.unsignedLimit).2.1,
    fun hdone => fetch_done store.recorded run.2.2 hdone⟩

/-- A store that answers each search with two documents of one time and claims to have five, under a
limit of three rows: the second fetch, which asks for the one row left, fails in the bridge. -/
theorem fetches_protocol_contradicted :
    let document : Members := [("at", .text "2024-05-01T10:00:00Z")]
    let store : Store Unit := ⟨fun _ _ => (.ok ⟨5, [document, document], []⟩, ())⟩
    let range : TimeRange := ⟨.utc 1714550000000000000, .utc 1714560000000000000⟩
    let start := Pager.start ["logs"] range ⟨"at", 2, 10⟩ none .asc (some 3)
    let run := fetches store.recorded 2 start ⟨((), []), .zero⟩
    run.1.map (·.toOption.map (·.rows.length)) = [some 2, none] ∧ run.2.1.state = .bridging ∧
      run.2.1.emitted = 2 ∧ run.2.2.asked.length = 3 ∧ Protocol start run.1 run.2.1 := by
  intro document store range
  have hprotocol := @fetches_protocol Unit ["logs"] range ⟨"at", 2, 10⟩ none .asc (some 3) store ()
    .zero (by decide) 2
  exact ⟨by cbv, by cbv, by cbv, by cbv, hprotocol.1⟩

end Pager
end Sluice
