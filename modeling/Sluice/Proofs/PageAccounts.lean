import Sluice.Proofs.PageProtocol

/-!
What the counters of a paged read come to, whatever a store answers: an outcome for each search that
is sent, the rows of each batch that reaches the caller, and a bridge round for each search sent
while a time is bridged. A search that fails is counted, and so is one whose rows are dropped.
-/
namespace Sluice

variable {σ : Type}

instance : Fintype FaultLabel where
  elems := {.unknown, .server, .connection, .missingIndex, .newIndex, .missingField,
    .windowOverflow}
  complete := fun label => by cases label <;> simp

namespace Counters

/-- Searches that ended, well or with an error of any label. -/
def outcomes (counters : Counters) : Nat :=
  counters.count .successes + ∑ label, counters.count (.errors label)

/-- Rows that paging and bridging handed over. -/
def pagedRows (counters : Counters) : Nat :=
  counters.count (.fetchedRows .page) + counters.count (.fetchedRows .bridge)

theorem outcomes_add (counters : Counters) (counter : Counter) (n : Nat) :
    (counters.add counter n).outcomes = counters.outcomes +
      match counter with
      | .successes | .errors _ => n
      | _ => 0 := by
  cases counter <;> simp [outcomes, count_add, Finset.sum_add_distrib] <;> omega

theorem pagedRows_add (counters : Counters) (counter : Counter) (n : Nat) :
    (counters.add counter n).pagedRows = counters.pagedRows +
      match counter with
      | .fetchedRows .page | .fetchedRows .bridge => n
      | _ => 0 := by
  rcases counter with _ | (_ | _ | _) | _ | _ | _ | _ | _ <;>
    simp [pagedRows, count_add] <;> omega

end Counters

/-! ## What a search is for -/

namespace SearchRequest

/-- The first of the clauses that documents must meet. -/
def firstClause? (request : SearchRequest) : Option Json := do
  let filtered ← (← request.body.member? "query").member? "filtered"
  let conjunction ← (← filtered.member? "filter").member? "bool"
  match ← conjunction.member? "must" with
  | .list clauses => clauses.head?
  | _ => none

/-- Whether a search is for the rows of one instant, and not for those of a range. -/
def ofInstant (request : SearchRequest) : Bool :=
  request.firstClause?.any fun clause => (clause.member? "term").isSome

theorem firstClause?_toJson (indices : List String) (q : Query) :
    (SearchRequest.mk indices q.toJson).firstClause? = q.clauses.head? := by
  simp only [firstClause?, q.member?_query]
  rfl

end SearchRequest

namespace Pager

variable {p : Pager} {session session' session'' : Session (σ × List SearchRequest)}
  {sent sent' : List SearchRequest} {rows rows' : Nat}

theorem ofInstant_pageRequest (p : Pager) : p.pageRequest.ofInstant = false := by
  rw [SearchRequest.ofInstant, pageRequest, request, SearchRequest.firstClause?_toJson]
  rfl

theorem ofInstant_bridgeRequest (p : Pager) (instant : Moment) :
    (p.bridgeRequest instant).ofInstant = true := by
  rw [SearchRequest.ofInstant, bridgeRequest, request, SearchRequest.firstClause?_toJson]
  rfl

/-! ## What lies between two sessions -/

/-- By how much the counters grow while searches are sent, the last one first, and rows are handed
over. -/
structure Accounts (sent : List SearchRequest) (rows : Nat)
    (session session' : Session (σ × List SearchRequest)) : Prop where
  asked : session'.asked = sent ++ session.asked
  outcomes : session'.counters.outcomes = session.counters.outcomes + sent.length
  rows : session'.counters.pagedRows = session.counters.pagedRows + rows
  bridgeRounds : session'.counters.count .bridgeRounds =
    session.counters.count .bridgeRounds + sent.countP (·.ofInstant)

theorem Accounts.refl (session : Session (σ × List SearchRequest)) :
    Accounts [] 0 session session := ⟨rfl, rfl, rfl, rfl⟩

theorem Accounts.trans (h : Accounts sent rows session session')
    (h' : Accounts sent' rows' session' session'') :
    Accounts (sent' ++ sent) (rows + rows') session session'' where
  asked := by rw [h'.asked, h.asked, List.append_assoc]
  outcomes := by
    rw [h'.outcomes, h.outcomes, List.length_append]
    omega
  rows := by rw [h'.rows, h.rows, Nat.add_assoc]
  bridgeRounds := by
    rw [h'.bridgeRounds, h.bridgeRounds, List.countP_append]
    omega

/-- A search has one outcome. The round of a bridge is not counted here, but ahead of it. -/
theorem counters_searchOrEmpty (store : Store σ) (operation : Operation) (request : SearchRequest)
    (session : Session σ) :
    let after := (store.searchOrEmpty operation request session).2.counters
    after.outcomes = session.counters.outcomes + 1 ∧
      after.pagedRows = session.counters.pagedRows ∧
      after.count .bridgeRounds = session.counters.count .bridgeRounds := by
  unfold Store.searchOrEmpty
  cases hanswer : (store.search session.store request).1 with
  | ok response =>
      simp [hanswer, Session.add, Counters.outcomes_add, Counters.pagedRows_add,
        Counters.count_add]
  | error e =>
      simp [hanswer, Session.add, Counters.outcomes_add, Counters.pagedRows_add,
        Counters.count_add]

theorem accounts_search {request : SearchRequest} (h : request.ofInstant = false)
    (store : Store σ) (operation : Operation) (session : Session (σ × List SearchRequest)) :
    Accounts [request] 0 session (store.recorded.searchOrEmpty operation request session).2 := by
  obtain ⟨houtcomes, hrows, hrounds⟩ :=
    counters_searchOrEmpty store.recorded operation request session
  refine ⟨store.asked_searchOrEmpty operation request session, houtcomes, hrows, ?_⟩
  simp [hrounds, h]

theorem accounts_round {request : SearchRequest} (h : request.ofInstant = true)
    (store : Store σ) (operation : Operation) (session : Session (σ × List SearchRequest)) :
    Accounts [request] 0 session
      (store.recorded.searchOrEmpty operation request (session.add .bridgeRounds 1)).2 := by
  obtain ⟨houtcomes, hrows, hrounds⟩ :=
    counters_searchOrEmpty store.recorded operation request (session.add .bridgeRounds 1)
  refine ⟨store.asked_searchOrEmpty operation request _, ?_, ?_, ?_⟩
  · rw [houtcomes, Session.add, Counters.outcomes_add]
    rfl
  · rw [hrows, Session.add, Counters.pagedRows_add]
  · rw [hrounds, Session.add, Counters.count_add]
    simp [h]

theorem accounts_countRows (operation : Operation) (h : operation ≠ .aggregateBucket)
    (result : Except ReadError Batch) (session : Session (σ × List SearchRequest)) :
    Accounts [] (handed result).length session (countRows operation result session) := by
  cases result with
  | error e => exact .refl session
  | ok batch =>
      refine ⟨rfl, Counters.outcomes_add _ _ _, ?_, Counters.count_add _ _ _ _⟩
      cases operation with
      | page => exact Counters.pagedRows_add _ _ _
      | bridge => exact Counters.pagedRows_add _ _ _
      | aggregateBucket => exact absurd rfl h

/-! ## Turns and fetches -/

theorem accounts_ask {request : SearchRequest} {operation : Operation}
    {receive : Response → Except ReadError Batch × Pager} (h : operation ≠ .aggregateBucket)
    (store : Store σ) (p : Pager) {before : Session (σ × List SearchRequest)}
    (hsearch : Accounts [request] 0 before
      (store.recorded.searchOrEmpty operation request session).2) :
    let out := ask store.recorded operation request receive p session
    Accounts [request] (handed out.1).length before out.2.2 := by
  unfold ask
  generalize store.recorded.searchOrEmpty operation request session = answered at *
  obtain ⟨e | response, session'⟩ := answered
  · exact hsearch
  · simpa using hsearch.trans (accounts_countRows operation h (receive response).1 session')

/-- A turn sends its search for one instant just where it bridges. -/
theorem accounts_takesTurn {store : Store σ}
    {out : Except ReadError Batch × Pager × Session (σ × List SearchRequest)}
    (hturn : TakesTurn store.recorded p session out) :
    ∃ sent, Accounts sent (handed out.1).length session out.2.2 ∧
      ∀ request ∈ sent, request.ofInstant = decide (p.settle.state = .bridging) := by
  cases hturn with
  | done | ended | lost | deep => exact ⟨[], .refl session, nofun⟩
  | @page hmore hstate q paging =>
      have hkind := ofInstant_pageRequest q
      refine ⟨[q.pageRequest],
        accounts_ask (by simp) store q (accounts_search hkind store .page session), ?_⟩
      rw [settle_of_not_exhausted hmore]
      rcases hstate with hstate | hstate <;> simpa [hstate] using hkind
  | @part hmore hstate m _ _ =>
      have hkind := p.ofInstant_bridgeRequest m
      refine ⟨[p.bridgeRequest m],
        accounts_ask (by simp) store p (accounts_round hkind store .bridge session), ?_⟩
      rw [settle_of_not_exhausted hmore]
      simpa [hstate] using hkind

theorem accounts_fetchWithin (store : Store σ) (searches : Nat) (p : Pager)
    (session : Session (σ × List SearchRequest)) :
    let out := fetchWithin store.recorded searches p session
    ∃ sent, Accounts sent (handed out.1).length session out.2.2 := by
  induction searches generalizing p session with
  | zero => exact ⟨[], .refl session⟩
  | succ searches ih =>
      obtain ⟨sent, hturn, -⟩ := accounts_takesTurn (takesTurn store.recorded p session)
      unfold fetchWithin
      generalize turn store.recorded p session = out at *
      obtain ⟨e | ⟨rows, eof⟩, p', session'⟩ := out
      · exact ⟨sent, hturn⟩
      · dsimp only
        split
        · exact ⟨sent, hturn⟩
        · rename_i hmore
          -- A batch that the caller never sees has no rows.
          obtain ⟨-, rfl⟩ : eof = false ∧ rows = [] := by simpa using hmore
          obtain ⟨sent', hrest⟩ := ih p' session'
          have hboth := hturn.trans hrest
          simp only [handed, List.length_nil, Nat.zero_add] at hboth
          exact ⟨sent' ++ sent, hboth⟩

theorem accounts_fetches (store : Store σ) (calls : Nat) (p : Pager)
    (session : Session (σ × List SearchRequest)) :
    let run := fetches store.recorded calls p session
    ∃ sent, Accounts sent (run.1.flatMap handed).length session run.2.2 := by
  induction calls generalizing p session with
  | zero => exact ⟨[], .refl session⟩
  | succ calls ih =>
      obtain ⟨sent, hfirst⟩ := accounts_fetchWithin store Word.unsignedLimit p session
      obtain ⟨sent', hrest⟩ := ih (fetch store.recorded p session).2.1
        (fetch store.recorded p session).2.2
      refine ⟨sent' ++ sent, ?_⟩
      have hboth := hfirst.trans hrest
      rw [← List.length_append] at hboth
      exact hboth

/-- Whatever a store answers, the outcomes that any number of fetches count are as many as the
searches they send, the rows they count are those of the batches that their caller gets, and the
bridge rounds are the searches for one instant. Those are the searches of the turns that bridge. -/
theorem fetches_accounted (store : Store σ) (calls : Nat) (p : Pager)
    (session : Session (σ × List SearchRequest)) :
    let run := fetches store.recorded calls p session
    (∃ sent, run.2.2.asked = sent ++ session.asked ∧
      run.2.2.counters.outcomes = session.counters.outcomes + sent.length ∧
      run.2.2.counters.pagedRows =
        session.counters.pagedRows + (run.1.flatMap handed).length ∧
      run.2.2.counters.count .bridgeRounds =
        session.counters.count .bridgeRounds + sent.countP (·.ofInstant)) ∧
    ∀ (q : Pager) (before : Session (σ × List SearchRequest)),
      ∃ sent, (turn store.recorded q before).2.2.asked = sent ++ before.asked ∧
        ∀ request ∈ sent, request.ofInstant = decide (q.settle.state = .bridging) := by
  obtain ⟨sent, hrun⟩ := accounts_fetches store calls p session
  refine ⟨⟨sent, hrun.asked, hrun.outcomes, hrun.rows, hrun.bridgeRounds⟩, fun q before => ?_⟩
  obtain ⟨sent, hturn, hkind⟩ := accounts_takesTurn (takesTurn store.recorded q before)
  exact ⟨sent, hturn.asked, hkind⟩

end Pager
end Sluice
