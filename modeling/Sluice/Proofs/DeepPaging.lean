import Sluice.Proofs.Draining
import Sluice.Proofs.PageProtocol

/-!
Reads that give up at their limit on deep paging. The limit is on the offset plus the size of a
search, and offsets are those of whole pages: a read that gives up has met more documents of one time
than whole pages up to the limit hold. It may give up on fewer documents than the limit, where pages
do not fill it.
-/
namespace Sluice

namespace Pager

open Document Sorting

variable {p q : Pager} {documents : List Members} {m : Moment}

/-! ## Ranges -/

theorem admits_of_advanceTo {inclusive : Bool} {range : TimeRange} (hm : m.Writable)
    (hadmits : p.range.Admits m) (hadvance : p.advanceTo m inclusive = .ok range) {x : Moment}
    (hx : range.Admits x) : p.range.Admits x := by
  have hmod := Moment.truncateMillis_nanos m
  have hxmod := x.truncateMillis_emod
  have hsmod := p.range.stop.truncateMillis_emod
  obtain ⟨edge, hedge, ⟨-, rfl, hnanos⟩ | ⟨-, rfl, hnanos⟩⟩ := advanceTo_eq_ok hm hadvance
  · refine ⟨fun hstart => ?_, hx.stop⟩
    have hlow := hadmits.start hstart
    have hbehind := hx.start hedge
    simp only [edge.truncateMillis_nanos, hnanos, Moment.nanosPerMilli] at *
    cases inclusive <;> simp at hbehind <;> omega
  · refine ⟨hx.start, fun hstop => ?_⟩
    have hhigh := hadmits.stop hstop
    have hbefore := hx.stop hedge
    simp only [edge.truncateMillis_nanos, hnanos, Moment.nanosPerMilli] at *
    cases inclusive <;> simp at hbefore <;> omega

/-! ## Answers -/

/-- The documents that meet a clause and a pager's filter. -/
def found (p : Pager) (documents : List Members) (clause : Json) : List Members :=
  documents.filter (p.query 0 clause).matched

theorem mem_found {clause : Json} {document : Members} :
    document ∈ p.found documents clause ↔ document ∈ documents ∧
      Condition.met clause document = true ∧
        p.filter.toList.all (Condition.met · document) = true := by
  rw [found, List.mem_filter, Query.matched, query, List.all_cons, Bool.and_eq_true]

/-- A response with a part of all that meets a clause, in the order of reading. -/
structure Finds (p : Pager) (documents : List Members) (clause : Json) (response : Response) :
    Prop where
  total : response.total = (p.found documents clause).length
  hits : ∃ start size, response.hits =
    ((byRank p.rank (p.found documents clause)).drop start).take size

theorem answer_request {memory : MemoryStore} {start : Nat} {clause : Json} {response : Response}
    (hsearched : memory.searched p.indices = documents)
    (htimed : ∀ document ∈ documents, Timed p.options.timeField document)
    (hclause : ∀ document ∈ documents, Condition.met clause document = true →
      (time? p.options.timeField document).isSome = true)
    (h : memory.answer (p.request start clause) = .ok response) :
    response = Response.empty ∨ p.Finds documents clause response := by
  have hsorted : (p.query start clause).sorted (p.found documents clause) =
      byRank p.rank (p.found documents clause) :=
    sorted_query htimed fun document hmem => by
      obtain ⟨hdocument, hmet, -⟩ := mem_found.mp hmem
      exact ⟨hdocument, hclause document hdocument hmet⟩
  rw [request_eq] at h
  rcases MemoryStore.answer_query_eq_ok h with hempty | ⟨htotal, start, size, hhits⟩
  · exact .inl hempty
  · rw [hsearched] at htotal hhits
    refine .inr ⟨htotal.trans ?_, start, size, hhits.trans (congrArg _ (congrArg _ hsorted))⟩
    exact (congrArg List.length hsorted).trans (perm_byRank _ _).length_eq

/-- Documents of one time that a search gives are documents of that time. -/
theorem length_le_ties {clause : Json} {hits : List Members} {t : Int}
    (hsub : hits.Sublist (byRank p.rank (p.found documents clause)))
    (htick : ∀ document ∈ hits, (time? p.options.timeField document).isSome = true ∧
      tick p.options.timeField document = t) :
    hits.length ≤ (p.ties documents t).length := by
  let atTick : Members → Bool := fun document =>
    (time? p.options.timeField document).any (·.truncateMillis.nanos = t)
  have hall : hits.filter atTick = hits := by
    refine List.filter_eq_self.mpr fun document hmem => ?_
    obtain ⟨hsome, htick⟩ := htick document hmem
    obtain ⟨m, hm⟩ := Option.isSome_iff_exists.mp hsome
    rw [tick_eq hm] at htick
    simp only [atTick, hm, Option.any_some, htick, decide_true]
  have hties : ((p.found documents clause).filter atTick).Sublist (p.ties documents t) := by
    rw [found, List.filter_filter, ties]
    refine List.monotone_filter_right _ fun document hkept => ?_
    obtain ⟨hat, hmatched⟩ := Bool.and_eq_true_iff.mp hkept
    rw [Query.matched, query, List.all_cons] at hmatched
    exact Bool.and_eq_true_iff.mpr ⟨hat, (Bool.and_eq_true_iff.mp hmatched).2⟩
  calc hits.length = (hits.filter atTick).length := by rw [hall]
    _ ≤ ((byRank p.rank (p.found documents clause)).filter atTick).length :=
        (hsub.filter _).length_le
    _ = ((p.found documents clause).filter atTick).length :=
        ((perm_byRank _ _).filter _).length_eq
    _ ≤ (p.ties documents t).length := hties.length_le

/-- A page whose first and last rows have the same time has no more rows than there are documents of
that time. -/
theorem Finds.ties (htimed : ∀ document ∈ documents, Timed p.options.timeField document)
    {response : Response} (h : p.Finds documents (p.range.clause p.options.timeField) response)
    {rows : List Keyed} (hrows : response.hits.mapM (keyed p.options.timeField) = .ok rows)
    {first last : Keyed} (hfirst : rows.head? = some first) (hlast : rows.getLast? = some last) :
    last.1.Writable ∧ p.range.Admits last.1 ∧ (first.1.nanos = last.1.nanos →
      rows.length ≤ (p.ties documents last.1.truncateMillis.nanos).length) := by
  obtain ⟨start, size, hhits⟩ := h.hits
  have hsub : response.hits.Sublist
      (byRank p.rank (p.found documents (p.range.clause p.options.timeField))) :=
    hhits ▸ (List.take_sublist _ _).trans (List.drop_sublist _ _)
  have hmem : ∀ document ∈ response.hits, document ∈ documents ∧
      ∃ m, time? p.options.timeField document = some m ∧ p.range.Admits m := by
    intro document hmem
    obtain ⟨hdocument, hmet, -⟩ := mem_found.mp ((perm_byRank _ _).mem_iff.mp (hsub.subset hmem))
    exact ⟨hdocument, Condition.admits_of_met (htimed document hdocument) hmet⟩
  have hsome : ∀ document ∈ response.hits,
      document ∈ documents ∧ (time? p.options.timeField document).isSome = true := by
    intro document hdocument
    obtain ⟨hdocument, m, hm, -⟩ := hmem document hdocument
    exact ⟨hdocument, by rw [hm]; rfl⟩
  obtain rfl := of_mapM_keyed htimed hsome hrows
  simp only [List.head?_map, List.getLast?_map, Option.map_eq_some_iff] at hfirst hlast
  obtain ⟨first, hfirst, rfl⟩ := hfirst
  obtain ⟨last, hlast, rfl⟩ := hlast
  obtain ⟨hdocument, m, hm, hadmits⟩ := hmem last (List.mem_of_getLast? hlast)
  have hkey : key p.options.timeField last = m.truncateMillis := by rw [key, hm, Option.getD_some]
  have haligned : m.truncateMillis.truncateMillis.nanos = m.truncateMillis.nanos :=
    Moment.truncateMillis_eq_self m.truncateMillis_emod
  have hfirstSome := (hsome first (List.mem_of_head? hfirst)).2
  have hlastSome := (hsome last (List.mem_of_getLast? hlast)).2
  refine ⟨(htimed last hdocument).writable_key hlastSome, ?_, fun htie => ?_⟩
  · rw [entry, hkey]
    exact ⟨fun hstart => haligned ▸ hadmits.start hstart,
      fun hstop => haligned ▸ hadmits.stop hstop⟩
  · have hrank : p.rank first = p.rank last := by
      rw [rank, rank, ← key_nanos hfirstSome, ← key_nanos hlastSome]
      exact congrArg p.direction.rank htie
    have hsame :=
      rank_eq_of_head_of_getLast ((pairwise_byRank _ _).sublist hsub) hfirst hlast hrank
    rw [List.length_map, entry, hkey, haligned, ← tick_eq hm]
    refine length_le_ties hsub fun document hdocument => ⟨(hsome document hdocument).2, ?_⟩
    exact Direction.rank_inj.mp ((hsame document hdocument).trans hrank)

theorem length_found_moment (htimed : ∀ document ∈ documents, Timed p.options.timeField document)
    (hm : m.Writable) :
    (p.found documents (m.clause p.options.timeField)).length =
      (p.ties documents m.truncateMillis.nanos).length := by
  rw [found, ties]
  refine congrArg List.length (List.filter_congr fun document hmem => ?_)
  rw [Query.matched, query, List.all_cons, Condition.met_moment_clause (htimed document hmem) hm]

/-! ## The invariant -/

/-- A pager partway through a time of its range. -/
structure Crosses (p : Pager) (documents : List Members) (m : Moment) : Prop
    extends Partway p documents m where
  writable : m.Writable
  admits : p.range.Admits m

/-- What holds between two turns of a read that began as `start`, whatever its range and filter. -/
structure Grounded (start : Pager) (documents : List Members) (p : Pager) : Prop
    extends Follows p start where
  within : ∀ m, p.range.Admits m → start.range.Admits m
  bridge : p.state = .bridging → ∃ m, p.lastSeen = some m ∧ p.Crosses documents m

/-- What an error of a read at its limit on deep paging says of the documents. -/
def Justified (start : Pager) (documents : List Members) (limit : Nat) : Prop :=
  limit = start.options.deepPagingLimit ∧ ∃ m, start.range.Admits m ∧
    start.options.fetchSize ≤ (start.ties documents m.truncateMillis.nanos).length ∧
    limit < (start.ties documents m.truncateMillis.nanos).length +
      limit % start.options.fetchSize

theorem exists_emit (p : Pager) (rows : List Keyed) :
    (p.emit rows).2 = p.credit (p.clip rows).length := by
  rw [← emit_clip, emit_eq fun n hn => length_clip_le rows hn]

variable {start : Pager}

theorem Grounded.settled (h : Grounded start documents p) (state : PagerState)
    (hstate : state ≠ .bridging) : Grounded start documents { p with state } where
  toFollows := ⟨h.indices, h.filter, h.options, h.direction⟩
  within := h.within
  bridge := fun h => absurd h hstate

/-- Handing rows over leaves what is bridged, or ends the read. -/
theorem Grounded.credit (h : Grounded start documents p) (n : Nat) :
    Grounded start documents (p.credit n) where
  toFollows := ⟨h.indices, h.filter, h.options, h.direction⟩
  within := h.within
  bridge := fun hstate => by
    have hstate : p.state = .bridging := by
      simp only [Pager.credit] at hstate
      split at hstate
      · cases hstate
      · exact hstate
    obtain ⟨m, hlast, hm⟩ := h.bridge hstate
    exact ⟨m, hlast, { hm with }⟩

theorem Grounded.emit (h : Grounded start documents p) (rows : List Keyed) :
    Grounded start documents (p.emit rows).2 := by
  rw [exists_emit]
  exact h.credit _

/-- What a result and the pager behind it say of the documents. -/
structure Tells (start : Pager) (documents : List Members) (result : Except ReadError Batch)
    (p' : Pager) : Prop where
  grounded : Grounded start documents p'
  justified : ∀ limit, result = .error (.deepPaging limit) → Justified start documents limit

/-! ## One search -/

section Search

variable {response : Response}

theorem Grounded.takesPage (h : Grounded start documents p) (hpaging : p.state = .paging)
    (htimed : ∀ document ∈ documents, Timed p.options.timeField document)
    (hanswer : response = Response.empty ∨
      p.Finds documents (p.range.clause p.options.timeField) response)
    {result : Except ReadError Batch} {p' : Pager} (htakes : TakesPage p response result p') :
    Tells start documents result p' := by
  have hleft : p.state ≠ .bridging := by simp [hpaging]
  have hbounded : ∀ {rows first last}, Bounded p response rows first last →
      rows.length = p.options.fetchSize ∧ last.1.Writable ∧ p.range.Admits last.1 ∧
        (first.1.nanos = last.1.nanos →
          rows.length ≤ (p.ties documents last.1.truncateMillis.nanos).length) := by
    intro rows first last hbounded
    have hwhole := hbounded.size.trans (requestSize_eq_fetchSize hbounded.room)
    rcases hanswer with rfl | hfinds
    · -- An empty answer has no last row.
      cases hbounded.hits
      cases hbounded.getLast
    · exact ⟨hwhole, hfinds.ties htimed hbounded.hits hbounded.head hbounded.getLast⟩
  cases htakes with
  | unreadable hits =>
      rcases exists_of_mapM_keyed hits with rfl | ⟨cause, rfl⟩
      · exact ⟨h, nofun⟩
      · exact ⟨h, nofun⟩
  | last _ _ emit =>
      subst emit
      exact ⟨(h.settled .done (by simp)).emit _, nofun⟩
  | miscounted => exact ⟨h, nofun⟩
  | full _ _ emit =>
      subst emit
      exact ⟨h.emit _, nofun⟩
  | blank => exact ⟨h, nofun⟩
  | @tied rows first last hends tie =>
      obtain ⟨hwhole, hwritable, hadmits, hties⟩ := hbounded hends
      have hpos : 0 < rows.length := List.length_pos_of_mem (List.mem_of_head? hends.head)
      refine ⟨⟨⟨h.indices, h.filter, h.options, h.direction⟩, h.within, fun _ =>
        ⟨last.1, rfl, ⟨?_, ?_, Nat.dvd_zero _⟩, hwritable, hadmits⟩⟩, nofun⟩
      · exact Nat.lt_of_lt_of_le hpos (hties tie)
      · exact hwhole ▸ hties tie
  | stuck =>
      exact ⟨⟨⟨h.indices, h.filter, h.options, h.direction⟩, h.within,
        fun hstate => absurd hstate hleft⟩, nofun⟩
  | @advanced rows first last hends apart range advance out emit =>
      obtain ⟨-, hwritable, hadmits, -⟩ := hbounded hends
      have hranged : Grounded start documents { p with lastSeen := some last.1, range } :=
        ⟨⟨h.indices, h.filter, h.options, h.direction⟩,
          fun m hm => h.within m (admits_of_advanceTo hwritable hadmits advance hm),
          fun hstate => absurd hstate hleft⟩
      subst emit
      exact ⟨hranged.emit _, nofun⟩

theorem Grounded.closed {out : Batch × Pager} (h : Grounded start documents out.2) :
    Grounded start documents (closed out).2 := by
  unfold Pager.closed
  split
  · exact h.settled .done (by simp)
  · exact h

/-- An answer for a part of a time is the last one for it, or more documents of the time are behind
the part. -/
theorem Grounded.takesPart (h : Grounded start documents p) (hlast : p.lastSeen = some m)
    (hm : p.Crosses documents m)
    (htimed : ∀ document ∈ documents, Timed p.options.timeField document)
    (hanswer : response = Response.empty ∨
      p.Finds documents (m.clause p.options.timeField) response)
    {result : Except ReadError Batch} {p' : Pager} (htakes : TakesPart p m response result p') :
    Tells start documents result p' := by
  cases htakes with
  | unreadable hits =>
      rcases exists_of_mapM_keyed hits with rfl | ⟨cause, rfl⟩
      · exact ⟨h, nofun⟩
      · exact ⟨h, nofun⟩
  | stuck => exact ⟨h, nofun⟩
  | @last rows _ _ range advance _ emit =>
      have hbehind : Grounded start documents
          { p with range, bridging := false, bridgeOffset := 0, state := .paging } :=
        ⟨⟨h.indices, h.filter, h.options, h.direction⟩,
          fun x hx => h.within x (admits_of_advanceTo hm.writable hm.admits advance hx), nofun⟩
      subst emit
      exact ⟨(hbehind.emit rows).closed, nofun⟩
  | miscounted => exact ⟨h, nofun⟩
  | @part rows _ more size _ emit =>
      have hoffset : p.bridgeOffset + rows.length <
          (p.ties documents m.truncateMillis.nanos).length := by
        rcases hanswer with rfl | hfinds
        · exact absurd more (Nat.not_lt_zero _)
        · rw [hfinds.total, length_found_moment htimed hm.writable] at more
          omega
      suffices hfurther : Grounded start documents
          (({ p with bridgeOffset := p.bridgeOffset + rows.length } : Pager).emit rows).2 by
        subst emit
        exact ⟨hfurther.closed, nofun⟩
      by_cases hremaining : p.remaining = some p.requestSize
      · -- The limit is reached, so that the offset does not matter any more.
        have hclip : p.clip rows = rows := clip_eq_self fun n hn => by
          rw [size]
          exact requestSize_le_remaining hn
        have hdone : (p.credit rows.length).state = .done := by
          rw [size]
          exact state_credit_of_remaining hremaining
        rw [exists_emit]
        refine ⟨⟨h.indices, h.filter, h.options, h.direction⟩, h.within, fun hstate => ?_⟩
        have hstate : (p.credit (p.clip rows).length).state = .bridging := hstate
        rw [hclip, hdone] at hstate
        cases hstate
      · have hwhole : rows.length = p.options.fetchSize :=
          size.trans (requestSize_eq_fetchSize hremaining)
        have hfurther : Grounded start documents
            { p with bridgeOffset := p.bridgeOffset + rows.length } :=
          ⟨⟨h.indices, h.filter, h.options, h.direction⟩, h.within, fun _ =>
            ⟨m, hlast, hm.next hwhole hoffset, hm.writable, hm.admits⟩⟩
        exact hfurther.emit rows

end Search

/-! ## Turns -/

section Turns

variable {memory : MemoryStore} {session : Session ScriptedStore}

theorem answer_ne_deepPaging {request : SearchRequest} {e : ReadError}
    (h : memory.answer request = .error e) (limit : Nat) : e ≠ .deepPaging limit := by
  rw [MemoryStore.answer] at h
  split at h
  · cases h
  · unfold Store.absorb at h
    intro heq
    subst heq
    split at h <;> cases h

/-- The documents that a read searches, with what is known of their times. -/
structure Backs (memory : MemoryStore) (documents : List Members) (start : Pager) : Prop where
  searched : memory.searched start.indices = documents
  timed : ∀ document ∈ documents, Timed start.options.timeField document

theorem Backs.follows (h : Backs memory documents start) (hp : p.Follows start) :
    Backs memory documents p :=
  ⟨hp.indices ▸ h.searched, hp.options ▸ h.timed⟩

theorem Grounded.ask (h : Grounded start documents p) (hsession : session.Answers memory)
    {operation : Operation} {request : SearchRequest}
    {receive : Response → Except ReadError Batch × Pager}
    (hreceive : ∀ response, memory.answer request = .ok response →
      Tells start documents (receive response).1 (receive response).2) :
    let out := ask ScriptedStore.store operation request receive p session
    Tells start documents out.1 out.2.1 ∧ out.2.2.Answers memory := by
  obtain ⟨session', hsession', hsearch⟩ :=
    memory.searchOrEmpty_answer hsession operation request
  unfold Pager.ask
  simp only [hsearch]
  cases hanswer : memory.answer request with
  | error e =>
      exact ⟨⟨h, fun limit he => absurd (Except.error.inj he) (answer_ne_deepPaging hanswer _)⟩,
        hsession'⟩
  | ok response => exact ⟨hreceive response hanswer, answers_countRows hsession' _ _⟩

/-- An offset of whole pages that the limit does not let go on is less than a page below it. -/
theorem limit_lt_of_dvd {size offset limit total : Nat} (hdvd : size ∣ offset)
    (hover : limit < offset + size) (hoffset : offset < total) : limit < total + limit % size := by
  obtain ⟨pages, rfl⟩ := hdvd
  have hpages : limit / size < pages + 1 := Nat.div_lt_of_lt_mul (by rwa [Nat.mul_succ])
  have hwhole : size * (limit / size) ≤ size * pages :=
    Nat.mul_le_mul_left size (Nat.le_of_lt_succ hpages)
  have hparts := Nat.div_add_mod limit size
  omega

/-- The one place where a read gives up at the limit. -/
theorem Crosses.justified (hm : p.Crosses documents m) (h : Grounded start documents p)
    (hover : p.options.deepPagingLimit < p.bridgeOffset + p.requestSize) :
    Justified start documents p.options.deepPagingLimit := by
  have hties : p.ties documents m.truncateMillis.nanos =
      start.ties documents m.truncateMillis.nanos := by rw [ties, ties, h.options, h.filter]
  have hover := Nat.lt_of_lt_of_le hover (Nat.add_le_add_left p.requestSize_le p.bridgeOffset)
  have hlimit := limit_lt_of_dvd hm.fetchSize_dvd hover hm.offset_lt
  have hsize := hm.fetchSize_le
  rw [hties, h.options] at hlimit hsize
  rw [h.options]
  exact ⟨rfl, m, h.within m hm.admits, hsize, hlimit⟩

theorem Grounded.takesTurn (h : Grounded start documents p) (hback : Backs memory documents start)
    (hsession : session.Answers memory)
    {out : Except ReadError Batch × Pager × Session ScriptedStore}
    (hturn : TakesTurn ScriptedStore.store p session out) :
    Tells start documents out.1 out.2.1 ∧ out.2.2.Answers memory := by
  cases hturn with
  | done => exact ⟨⟨h, nofun⟩, hsession⟩
  | ended => exact ⟨⟨h.settled .done (by simp), nofun⟩, hsession⟩
  | @page _ _ q paging =>
      have hq : Grounded start documents q := paging ▸ h.settled .paging (by simp)
      obtain ⟨hsearched, htimed⟩ := hback.follows hq.toFollows
      refine hq.ask hsession fun response hanswer => ?_
      have hfinds := answer_request hsearched htimed (fun document hdocument hmet => by
        obtain ⟨m, hm, -⟩ := Condition.admits_of_met (htimed document hdocument) hmet
        rw [hm]
        rfl) hanswer
      exact hq.takesPage (paging ▸ rfl) htimed hfinds (q.takesPage response)
  | lost => exact ⟨⟨h, nofun⟩, hsession⟩
  | deep _ hstate hlast hover =>
      obtain ⟨m, hm, hcrosses⟩ := h.bridge hstate
      refine ⟨⟨h, fun limit he => ?_⟩, hsession⟩
      cases he
      exact hcrosses.justified h hover
  | @part _ hstate m hlast _ =>
      obtain ⟨m', hm', hcrosses⟩ := h.bridge hstate
      obtain rfl : m = m' := Option.some.inj (hlast.symm.trans hm')
      obtain ⟨hsearched, htimed⟩ := hback.follows h.toFollows
      refine h.ask (hsession.add .bridgeRounds 1) fun response hanswer => ?_
      have hfinds := answer_request hsearched htimed (fun document hdocument hmet => by
        rw [Condition.met_moment_clause (htimed document hdocument) hcrosses.writable] at hmet
        obtain ⟨t, ht, -⟩ := (Option.any_eq_true _ _).mp hmet
        rw [ht]
        rfl) hanswer
      exact h.takesPart hlast hcrosses htimed hfinds (p.takesPart m response)

theorem Grounded.fetchWithin (h : Grounded start documents p)
    (hback : Backs memory documents start) (hsession : session.Answers memory) (searches : Nat) :
    let out := fetchWithin ScriptedStore.store searches p session
    Tells start documents out.1 out.2.1 ∧ out.2.2.Answers memory := by
  induction searches generalizing p session with
  | zero => exact ⟨⟨h, nofun⟩, hsession⟩
  | succ searches ih =>
      obtain ⟨htells, hsession'⟩ :=
        h.takesTurn hback hsession (Pager.takesTurn ScriptedStore.store p session)
      unfold Pager.fetchWithin
      generalize Pager.turn ScriptedStore.store p session = out at *
      obtain ⟨e | batch, p', session'⟩ := out
      · exact ⟨htells, hsession'⟩
      · dsimp only
        split
        · exact ⟨htells, hsession'⟩
        · exact ih htells.grounded hsession'

theorem Grounded.fetches (h : Grounded start documents p) (hback : Backs memory documents start)
    (hsession : session.Answers memory) (calls : Nat) {limit : Nat}
    (hmem : .error (.deepPaging limit) ∈ (fetches ScriptedStore.store calls p session).1) :
    Justified start documents limit := by
  induction calls generalizing p session with
  | zero => cases hmem
  | succ calls ih =>
      obtain ⟨htells, hsession'⟩ := h.fetchWithin hback hsession Word.unsignedLimit
      rcases List.mem_cons.mp hmem with hhere | hlater
      · exact htells.justified limit hhere.symm
      · exact ih htells.grounded hsession' hlater

end Turns

/-! ## Reads at their limit -/

variable {memory : MemoryStore} {session : Session ScriptedStore} {patterns : List String}
  {range : TimeRange} {options : PageOptions} {filter : Option Json} {direction : Direction}
  {limit : Option Nat}

/-- A read gives up at its limit on deep paging only over a time that at least a page of documents in
its range share and that meet its filter, and more of them than whole pages up to the limit hold:
more than the limit itself where pages fill it or one page passes it. -/
theorem fetches_deepPaging (hsession : session.Answers memory)
    (htimed : ∀ document ∈ memory.searched patterns, Timed options.timeField document)
    (calls deep : Nat)
    (herror : .error (.deepPaging deep) ∈ (fetches ScriptedStore.store calls
      (.start patterns range options filter direction limit) session).1) :
    let start := Pager.start patterns range options filter direction limit
    deep = options.deepPagingLimit ∧ ∃ m : Moment, range.Admits m ∧
      let tied := start.ties (memory.searched patterns) m.truncateMillis.nanos
      options.fetchSize ≤ tied.length ∧ deep - deep % options.fetchSize < tied.length ∧
        (options.fetchSize ∣ deep ∨ deep < options.fetchSize → deep < tied.length) := by
  intro start
  have hstart : Grounded start (memory.searched patterns) start :=
    ⟨⟨rfl, rfl, rfl, rfl⟩, fun _ hm => hm, nofun⟩
  obtain ⟨hlimit, m, hadmits, hsize, hover⟩ :=
    hstart.fetches ⟨rfl, htimed⟩ hsession calls herror
  refine ⟨hlimit, m, hadmits, hsize, ?_, ?_⟩
  · have hmod := Nat.mod_le deep options.fetchSize
    change deep < _ + deep % options.fetchSize at hover
    omega
  · rintro (hdvd | hless)
    · have hmod : deep % start.options.fetchSize = 0 := Nat.mod_eq_zero_of_dvd hdvd
      rw [hmod] at hover
      exact hover
    · exact Nat.lt_of_lt_of_le hless hsize

/-- Four documents of one time, read by twos up to the third: the second search of the bridge would
end at the fourth. -/
theorem fetches_deepPaging_twos :
    let document : Members := [("at", .text "2024-05-01T10:00:00Z")]
    let memory : MemoryStore := ⟨[("logs", List.replicate 4 document)], 10000⟩
    let range : TimeRange := ⟨.utc 1714550000000000000, .utc 1714560000000000000⟩
    let start := Pager.start ["logs"] range ⟨"at", 2, 3⟩ none .asc none
    let session : Session ScriptedStore := ⟨⟨memory, [], []⟩, .zero⟩
    session.Answers memory ∧
      (∀ document ∈ memory.searched ["logs"], Timed "at" document) ∧
      .error (.deepPaging 3) ∈ (fetches ScriptedStore.store 2 start session).1 ∧
      ∃ m : Moment, range.Admits m ∧
        2 ≤ (start.ties (memory.searched ["logs"]) m.truncateMillis.nanos).length ∧
        2 < (start.ties (memory.searched ["logs"]) m.truncateMillis.nanos).length := by
  intro document memory range start session
  have hsearched : memory.searched ["logs"] = List.replicate 4 document := by cbv
  have htimed : ∀ document ∈ memory.searched ["logs"], Timed "at" document := by
    intro other hmem
    rw [hsearched] at hmem
    obtain rfl := List.eq_of_mem_replicate hmem
    exact .inr ⟨_, ⟨1714557600000000000, 0⟩, rfl, by decide +kernel⟩
  have herror : .error (.deepPaging 3) ∈ (fetches ScriptedStore.store 2 start session).1 := by
    have hresults : ∃ batch,
        (fetches ScriptedStore.store 2 start session).1 = [.ok batch, .error (.deepPaging 3)] :=
      ⟨_, by cbv⟩
    obtain ⟨batch, hresults⟩ := hresults
    rw [hresults]
    exact List.mem_cons_of_mem _ List.mem_cons_self
  have hanswers : session.Answers memory := ⟨rfl, rfl⟩
  obtain ⟨-, m, hadmits, hsize, hover, -⟩ := fetches_deepPaging hanswers htimed 2 3 herror
  exact ⟨hanswers, htimed, herror, m, hadmits, hsize, hover⟩

/-- Four documents of one time, read by threes up to the fourth. Offset and size of the second search
add up to six, so that the read gives up on as many documents as the limit lets through. -/
theorem fetches_deepPaging_threes :
    let document : Members := [("at", .text "2024-05-01T10:00:00Z")]
    let memory : MemoryStore := ⟨[("logs", List.replicate 4 document)], 10000⟩
    let range : TimeRange := ⟨.utc 1714550000000000000, .utc 1714560000000000000⟩
    let start := Pager.start ["logs"] range ⟨"at", 3, 4⟩ none .asc none
    let session : Session ScriptedStore := ⟨⟨memory, [], []⟩, .zero⟩
    session.Answers memory ∧
      (∀ document ∈ memory.searched ["logs"], Timed "at" document) ∧
      .error (.deepPaging 4) ∈ (fetches ScriptedStore.store 2 start session).1 ∧
      ∀ tick, ¬4 < (start.ties (memory.searched ["logs"]) tick).length := by
  intro document memory range start session
  have hsearched : memory.searched ["logs"] = List.replicate 4 document := by cbv
  refine ⟨⟨rfl, rfl⟩, fun other hmem => ?_, ?_, fun tick => ?_⟩
  · rw [hsearched] at hmem
    obtain rfl := List.eq_of_mem_replicate hmem
    exact .inr ⟨_, ⟨1714557600000000000, 0⟩, rfl, by decide +kernel⟩
  · have hresults : ∃ batch,
        (fetches ScriptedStore.store 2 start session).1 = [.ok batch, .error (.deepPaging 4)] :=
      ⟨_, by cbv⟩
    obtain ⟨batch, hresults⟩ := hresults
    rw [hresults]
    exact List.mem_cons_of_mem _ List.mem_cons_self
  · have hfew := List.length_filter_le (fun document =>
      ((Document.time? start.options.timeField document).any (·.truncateMillis.nanos = tick)) &&
        start.filter.toList.all (Condition.met · document)) (memory.searched ["logs"])
    rw [hsearched, List.length_replicate] at hfew
    rw [ties, hsearched]
    omega

end Pager
end Sluice
