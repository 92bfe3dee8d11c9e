import Sluice.Pager

/-!
What one turn of a pager can do: every way in which it takes an answer in, or goes without a search,
with all that decides on it.
-/
namespace Sluice.Pager

variable {σ : Type} {p : Pager} {response : Response}

/-! ## Pages -/

/-- A page with as many rows as were asked for, and more of them behind it. -/
structure Whole (p : Pager) (response : Response) (rows : List Keyed) : Prop where
  hits : response.hits.mapM (keyed p.options.timeField) = .ok rows
  size : rows.length = p.requestSize
  more : p.requestSize ≠ response.total

/-- A whole page from one row to another, behind which rows may still be emitted. -/
structure Bounded (p : Pager) (response : Response) (rows : List Keyed) (first last : Keyed) : Prop
    extends Whole p response rows where
  room : p.remaining ≠ some p.requestSize
  head : rows.head? = some first
  getLast : rows.getLast? = some last

/-- What a page comes to, and the pager behind it. -/
inductive TakesPage (p : Pager) (response : Response) : Except ReadError Batch → Pager → Prop
  | unreadable {e : ReadError} (hits : response.hits.mapM (keyed p.options.timeField) = .error e) :
      TakesPage p response (.error e) p
  | last {rows : List Keyed} (hits : response.hits.mapM (keyed p.options.timeField) = .ok rows)
      (total : rows.length = response.total) {out : Batch × Pager}
      (emit : ({ p with state := .done } : Pager).emit rows = out) :
      TakesPage p response (.ok out.1) out.2
  | miscounted {rows : List Keyed}
      (hits : response.hits.mapM (keyed p.options.timeField) = .ok rows)
      (more : rows.length ≠ response.total) (size : rows.length ≠ p.requestSize) :
      TakesPage p response (.error (.countMismatch p.requestSize rows.length)) p
  | full {rows : List Keyed} (h : Whole p response rows)
      (room : p.remaining = some p.requestSize) {out : Batch × Pager} (emit : p.emit rows = out) :
      TakesPage p response (.ok out.1) out.2
  | blank (h : Whole p response []) (room : p.remaining ≠ some p.requestSize) :
      TakesPage p response (.error .emptyPage) p
  | tied {rows : List Keyed} {first last : Keyed} (h : Bounded p response rows first last)
      (tie : first.1.nanos = last.1.nanos) :
      TakesPage p response (.ok ⟨[], false⟩)
        { p with
          lastSeen := some last.1, bridging := true, bridgeOffset := 0, state := .bridging }
  | stuck {rows : List Keyed} {first last : Keyed} (h : Bounded p response rows first last)
      (apart : first.1.nanos ≠ last.1.nanos) {cause : TimeError}
      (advance : p.advanceTo last.1 true = .error cause) :
      TakesPage p response (.error (.time cause)) { p with lastSeen := some last.1 }
  | advanced {rows : List Keyed} {first last : Keyed} (h : Bounded p response rows first last)
      (apart : first.1.nanos ≠ last.1.nanos) {range : TimeRange}
      (advance : p.advanceTo last.1 true = .ok range) {out : Batch × Pager}
      (emit : ({ p with lastSeen := some last.1, range } : Pager).emit
        (rows.filter (·.1.nanos ≠ last.1.nanos)) = out) :
      TakesPage p response (.ok out.1) out.2

theorem takesPage (p : Pager) (response : Response) :
    TakesPage p response (p.receivePage response).1 (p.receivePage response).2 := by
  unfold receivePage
  cases hits : response.hits.mapM (keyed p.options.timeField) with
  | error e => exact .unreadable hits
  | ok rows =>
      dsimp only
      by_cases total : rows.length = response.total
      · rw [if_pos total]
        exact .last hits total rfl
      rw [if_neg total]
      by_cases size : rows.length = p.requestSize
      · have hwhole : Whole p response rows := ⟨hits, size, size ▸ total⟩
        rw [if_neg (not_not_intro size), size]
        split
        · rename_i room
          exact .full hwhole room rfl
        · rename_i room
          split
          · rename_i first _ last _ head getLast
            have hbounded : Bounded p response rows _ _ := ⟨hwhole, room, head, getLast⟩
            split
            · rename_i tie
              exact .tied hbounded tie
            · rename_i apart
              split
              · rename_i cause advance
                exact .stuck hbounded apart advance
              · rename_i range advance
                exact .advanced hbounded apart advance rfl
          · rename_i hends
            -- A page with a first row has a last one.
            cases rows with
            | nil => exact .blank hwhole room
            | cons row rows => exact (hends _ _ _ _ rfl (List.getLast?_cons ..)).elim
      · rw [if_pos size]
        exact .miscounted hits total size

theorem TakesPage.receivePage {result : Except ReadError Batch} {p' : Pager}
    (h : TakesPage p response result p') : p.receivePage response = (result, p') := by
  cases h with
  | unreadable hits => simp only [Pager.receivePage, hits]
  | last hits total emit => simp only [Pager.receivePage, hits, total, emit, ↓reduceIte]
  | miscounted hits more size =>
      simp only [Pager.receivePage, hits, more, size, ne_eq, not_false_eq_true, ↓reduceIte]
  | full h room emit =>
      simp only [Pager.receivePage, h.hits, h.size, h.more, room, emit, ne_eq, not_true_eq_false,
        ↓reduceIte]
  | blank h room =>
      simp only [Pager.receivePage, h.hits, h.size, h.more, room, ne_eq, not_true_eq_false,
        ↓reduceIte, List.head?_nil]
  | tied h tie =>
      simp only [Pager.receivePage, h.hits, h.size, h.more, h.room, h.head, h.getLast, tie, ne_eq,
        not_true_eq_false, ↓reduceIte]
  | @stuck rows first last h apart cause advance =>
      have hadvance : ({ p with lastSeen := some last.1 } : Pager).advanceTo last.1 true =
          .error cause := advance
      simp only [Pager.receivePage, h.hits, h.size, h.more, h.room, h.head, h.getLast, apart,
        hadvance, ne_eq, not_true_eq_false, ↓reduceIte]
  | @advanced rows first last h apart range advance out emit =>
      have hadvance : ({ p with lastSeen := some last.1 } : Pager).advanceTo last.1 true =
          .ok range := advance
      simp only [Pager.receivePage, h.hits, h.size, h.more, h.room, h.head, h.getLast, apart,
        hadvance, emit, ne_eq, not_true_eq_false, ↓reduceIte]

/-! ## Parts of a bridged time -/

/-- A batch and the pager behind it, at the end if no range is left. -/
def closed (out : Batch × Pager) : Batch × Pager :=
  if !out.1.eof && out.2.range.isEmpty then
    ({ out.1 with eof := true }, { out.2 with state := .done })
  else out

/-- What a part of a bridged time comes to, and the pager behind it. -/
inductive TakesPart (p : Pager) (instant : Moment) (response : Response) :
    Except ReadError Batch → Pager → Prop
  | unreadable {e : ReadError} (hits : response.hits.mapM (keyed p.options.timeField) = .error e) :
      TakesPart p instant response (.error e) p
  | stuck {rows : List Keyed} (hits : response.hits.mapM (keyed p.options.timeField) = .ok rows)
      (total : response.total ≤ rows.length + p.bridgeOffset) {cause : TimeError}
      (advance : p.advanceTo instant false = .error cause) :
      TakesPart p instant response (.error (.time cause)) p
  | last {rows : List Keyed} (hits : response.hits.mapM (keyed p.options.timeField) = .ok rows)
      (total : response.total ≤ rows.length + p.bridgeOffset) {range : TimeRange}
      (advance : p.advanceTo instant false = .ok range) {out : Batch × Pager}
      (emit : ({ p with range, bridging := false, bridgeOffset := 0, state := .paging } :
        Pager).emit rows = out) :
      TakesPart p instant response (.ok (closed out).1) (closed out).2
  | miscounted {rows : List Keyed}
      (hits : response.hits.mapM (keyed p.options.timeField) = .ok rows)
      (more : rows.length + p.bridgeOffset < response.total)
      (size : rows.length ≠ p.requestSize) :
      TakesPart p instant response (.error (.countMismatch p.requestSize rows.length)) p
  | part {rows : List Keyed} (hits : response.hits.mapM (keyed p.options.timeField) = .ok rows)
      (more : rows.length + p.bridgeOffset < response.total)
      (size : rows.length = p.requestSize) {out : Batch × Pager}
      (emit : ({ p with bridgeOffset := p.bridgeOffset + rows.length } : Pager).emit rows = out) :
      TakesPart p instant response (.ok (closed out).1) (closed out).2

theorem takesPart (p : Pager) (instant : Moment) (response : Response) :
    TakesPart p instant response (p.receiveBridge instant response).1
      (p.receiveBridge instant response).2 := by
  have hclosed : ∀ {batch : Batch} {p' : Pager},
      (if !batch.eof && p'.range.isEmpty then
        (.ok { batch with eof := true }, { p' with state := .done })
        else (.ok batch, p') : Except ReadError Batch × Pager) =
          (.ok (closed (batch, p')).1, (closed (batch, p')).2) := by
    intro batch p'
    unfold closed
    split <;> rfl
  unfold receiveBridge
  cases hits : response.hits.mapM (keyed p.options.timeField) with
  | error e => exact .unreadable hits
  | ok rows =>
      dsimp only
      by_cases total : response.total ≤ rows.length + p.bridgeOffset
      · rw [if_pos total]
        cases advance : p.advanceTo instant false with
        | error cause => exact .stuck hits total advance
        | ok range =>
            dsimp only
            rw [hclosed]
            exact .last hits total advance rfl
      have more := Nat.lt_of_not_le total
      rw [if_neg total]
      by_cases size : rows.length = p.requestSize
      · rw [if_neg (not_not_intro size), hclosed]
        exact .part hits more size rfl
      · rw [if_pos size]
        exact .miscounted hits more size

/-! ## Turns -/

/-- Whether there is nothing left to read. -/
def Exhausted (p : Pager) : Prop := p.remaining = some 0 ∨ p.range.isEmpty = true

theorem settle_of_exhausted (hlive : p.state ≠ .done) (h : p.Exhausted) :
    p.settle = { p with state := .done } := if_pos ⟨hlive, h⟩

theorem settle_of_not_exhausted (h : ¬p.Exhausted) : p.settle = p := if_neg fun hend => h hend.2

theorem settle_of_done (h : p.state = .done) : p.settle = p := if_neg fun hend => hend.1 h

/-- A search, and what is made of its answer. -/
def ask (store : Store σ) (operation : Operation) (request : SearchRequest)
    (receive : Response → Except ReadError Batch × Pager) (p : Pager) (session : Session σ) :
    Except ReadError Batch × Pager × Session σ :=
  match store.searchOrEmpty operation request session with
  | (.error e, session) => (.error e, p, session)
  | (.ok response, session) =>
    ((receive response).1, (receive response).2,
      countRows operation (receive response).1 session)

/-- What a turn comes to, with the pager and the session behind it. -/
inductive TakesTurn (store : Store σ) (p : Pager) (session : Session σ) :
    Except ReadError Batch × Pager × Session σ → Prop
  | done (state : p.state = .done) : TakesTurn store p session (.ok ⟨[], true⟩, p, session)
  | ended (live : p.state ≠ .done) (exhausted : p.Exhausted) :
      TakesTurn store p session (.ok ⟨[], true⟩, { p with state := .done }, session)
  | page (more : ¬p.Exhausted) (state : p.state = .idle ∨ p.state = .paging) {q : Pager}
      (paging : { p with state := .paging } = q) :
      TakesTurn store p session (ask store .page q.pageRequest q.receivePage q session)
  | lost (more : ¬p.Exhausted) (state : p.state = .bridging) (last : p.lastSeen = none) :
      TakesTurn store p session (.error .bridgeWithoutInstant, p, session)
  | deep (more : ¬p.Exhausted) (state : p.state = .bridging) {m : Moment}
      (last : p.lastSeen = some m)
      (beyond : p.options.deepPagingLimit < p.bridgeOffset + p.requestSize) :
      TakesTurn store p session (.error (.deepPaging p.options.deepPagingLimit), p, session)
  | part (more : ¬p.Exhausted) (state : p.state = .bridging) {m : Moment}
      (last : p.lastSeen = some m)
      (room : p.bridgeOffset + p.requestSize ≤ p.options.deepPagingLimit) :
      TakesTurn store p session
        (ask store .bridge (p.bridgeRequest m) (p.receiveBridge m) p (session.add .bridgeRounds 1))

theorem takesTurn (store : Store σ) (p : Pager) (session : Session σ) :
    TakesTurn store p session (turn store p session) := by
  unfold turn
  by_cases hdone : p.state = .done
  · rw [settle_of_done hdone]
    simp only [hdone]
    exact .done hdone
  by_cases hend : p.Exhausted
  · rw [settle_of_exhausted hdone hend]
    exact .ended hdone hend
  rw [settle_of_not_exhausted hend]
  cases hstate : p.state with
  | idle =>
      simp only [hstate]
      exact .page hend (.inl hstate) rfl
  | paging =>
      simp only [hstate]
      exact .page hend (.inr hstate) rfl
  | done => exact absurd hstate hdone
  | bridging =>
      simp only [hstate, fetchBridge]
      cases hlast : p.lastSeen with
      | none => exact .lost hend hstate hlast
      | some m =>
          by_cases hdeep : p.options.deepPagingLimit < p.bridgeOffset + p.requestSize
          · simp only [if_pos hdeep]
            exact .deep hend hstate hlast hdeep
          · simp only [if_neg hdeep]
            exact .part hend hstate hlast (Nat.le_of_not_lt hdeep)

end Sluice.Pager
