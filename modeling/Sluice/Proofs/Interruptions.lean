import Sluice.Proofs.PageProtocol

/-!
Reads whose searches fail now and then. A search that fails leaves the pager where its next turn
asks for the same again, so that a caller who calls again after every error is handed the batches of
a read without failures, only with more calls.
-/
namespace Sluice

/-! ## Failures -/

/-- A search that is left to the memory, or one that fails. A missing index and one that is too new
to be searched are no failures, but empty answers. -/
inductive ScriptEntry.Interrupts : ScriptEntry → Prop
  | pass : Interrupts .pass
  | fail {e : StoreError} (missing : ∀ name, e.fault ≠ .missingIndex name)
      (new : e.fault ≠ .newIndex) : Interrupts (.answer (.error e))

/-- The session of a store that answers from memory, save for searches that fail. -/
structure Session.Interrupted (memory : MemoryStore) (session : Session ScriptedStore) : Prop where
  memory : session.store.memory = memory
  script : ∀ entry ∈ session.store.script, entry.Interrupts

/-- How many searches may still fail. -/
def Session.pending (session : Session ScriptedStore) : Nat := session.store.script.length

theorem Store.absorb_of_fail {e : StoreError} (missing : ∀ name, e.fault ≠ .missingIndex name)
    (new : e.fault ≠ .newIndex) : ∃ error, absorb e = .error error := by
  unfold absorb
  split
  · rename_i name hfault
    exact absurd hfault (missing name)
  · rename_i hfault
    exact absurd hfault new
  · exact ⟨_, rfl⟩
  · exact ⟨_, rfl⟩
  · exact ⟨_, rfl⟩
  · exact ⟨_, rfl⟩

variable {memory : MemoryStore} {session : Session ScriptedStore}

theorem Session.Interrupted.add (h : session.Interrupted memory) (counter : Counter) (n : Nat) :
    (session.add counter n).Interrupted memory :=
  ⟨h.memory, h.script⟩

/-- A scripted store answers from memory, or it fails and one failure less is left. -/
theorem ScriptedStore.search_interrupts (s : ScriptedStore)
    (h : ∀ entry ∈ s.script, entry.Interrupts) (request : SearchRequest) :
    let out := store.search s request
    out.2.memory = s.memory ∧ (∀ entry ∈ out.2.script, entry.Interrupts) ∧
      (out.1 = s.memory.search request ∧ out.2.script.length ≤ s.script.length ∨
        (∃ e error, out.1 = .error e ∧ Store.absorb e = .error error) ∧
          out.2.script.length < s.script.length) := by
  obtain ⟨memory, script, asked⟩ := s
  cases script with
  | nil => exact ⟨rfl, h, .inl ⟨rfl, Nat.le_refl 0⟩⟩
  | cons entry script =>
      have hrest : ∀ other ∈ script, other.Interrupts :=
        fun other hother => h other (List.mem_cons_of_mem entry hother)
      cases h entry List.mem_cons_self with
      | pass => exact ⟨rfl, hrest, .inl ⟨rfl, Nat.le_succ _⟩⟩
      | @fail e missing new =>
          obtain ⟨error, herror⟩ := Store.absorb_of_fail missing new
          exact ⟨rfl, hrest, .inr ⟨⟨e, error, rfl, herror⟩, Nat.lt_succ_self _⟩⟩

theorem Session.Interrupted.searchOrEmpty (h : session.Interrupted memory) (operation : Operation)
    (request : SearchRequest) :
    let out := ScriptedStore.store.searchOrEmpty operation request session
    out.2.Interrupted memory ∧
      (out.1 = memory.answer request ∧ out.2.pending ≤ session.pending ∨
        (∃ e, out.1 = .error e) ∧ out.2.pending < session.pending) := by
  obtain ⟨hmemory, hscript, hcases⟩ := session.store.search_interrupts h.script request
  rw [h.memory] at hmemory hcases
  unfold Store.searchOrEmpty MemoryStore.answer
  generalize ScriptedStore.store.search session.store request = out at *
  obtain ⟨result, state⟩ := out
  rcases hcases with ⟨rfl, hlength⟩ | ⟨⟨e, error, rfl, herror⟩, hlength⟩
  · cases memory.search request with
    | ok response => exact ⟨⟨hmemory, hscript⟩, .inl ⟨rfl, hlength⟩⟩
    | error e => exact ⟨⟨hmemory, hscript⟩, .inl ⟨rfl, hlength⟩⟩
  · exact ⟨⟨hmemory, hscript⟩, .inr ⟨⟨error, herror⟩, hlength⟩⟩

namespace Pager

/-! ## Turns -/

/-- A turn whose search, if it needs one, is answered so. -/
def answered (answer : SearchRequest → Except ReadError Response) (p : Pager) :
    Except ReadError Batch × Pager :=
  let p := p.settle
  match p.state with
  | .done => (.ok ⟨[], true⟩, p)
  | .bridging =>
    match p.lastSeen with
    | none => (.error .bridgeWithoutInstant, p)
    | some instant =>
      if p.options.deepPagingLimit < p.bridgeOffset + p.requestSize then
        (.error (.deepPaging p.options.deepPagingLimit), p)
      else match answer (p.bridgeRequest instant) with
        | .error e => (.error e, p)
        | .ok response => p.receiveBridge instant response
  | .idle | .paging =>
    let p := { p with state := .paging }
    match answer p.pageRequest with
    | .error e => (.error e, p)
    | .ok response => p.receivePage response

variable {p p' q : Pager} {answer : SearchRequest → Except ReadError Response}

theorem answered_of_done (answer : SearchRequest → Except ReadError Response)
    (h : p.state = .done) : p.answered answer = (.ok ⟨[], true⟩, p) := by
  unfold answered
  rw [settle_of_done h]
  simp only [h]

theorem answered_of_exhausted (answer : SearchRequest → Except ReadError Response)
    (hlive : p.state ≠ .done) (h : p.Exhausted) :
    p.answered answer = (.ok ⟨[], true⟩, { p with state := .done }) := by
  unfold answered
  rw [settle_of_exhausted hlive h]

theorem answered_of_paging (answer : SearchRequest → Except ReadError Response)
    (hmore : ¬p.Exhausted) (hstate : p.state = .idle ∨ p.state = .paging) :
    p.answered answer =
      match answer ({ p with state := .paging } : Pager).pageRequest with
      | .error e => (.error e, { p with state := .paging })
      | .ok response => ({ p with state := .paging } : Pager).receivePage response := by
  unfold answered
  rw [settle_of_not_exhausted hmore]
  rcases hstate with hstate | hstate <;> simp only [hstate]

theorem answered_of_bridging (answer : SearchRequest → Except ReadError Response)
    (hmore : ¬p.Exhausted) (hstate : p.state = .bridging) :
    p.answered answer =
      match p.lastSeen with
      | none => (.error .bridgeWithoutInstant, p)
      | some instant =>
        if p.options.deepPagingLimit < p.bridgeOffset + p.requestSize then
          (.error (.deepPaging p.options.deepPagingLimit), p)
        else match answer (p.bridgeRequest instant) with
          | .error e => (.error e, p)
          | .ok response => p.receiveBridge instant response := by
  unfold answered
  rw [settle_of_not_exhausted hmore]
  simp only [hstate]

theorem answered_paging (answer : SearchRequest → Except ReadError Response)
    (h : p.state = .idle ∨ p.state = .paging) :
    ({ p with state := .paging } : Pager).answered answer = p.answered answer := by
  by_cases hend : p.Exhausted
  · have hend' : ({ p with state := .paging } : Pager).Exhausted := hend
    have hlive : p.state ≠ .done := by rcases h with h | h <;> simp [h]
    rw [answered_of_exhausted answer hlive hend, answered_of_exhausted answer (by simp) hend']
  · have hmore : ¬({ p with state := .paging } : Pager).Exhausted := hend
    rw [answered_of_paging answer hend h, answered_of_paging answer hmore (.inr rfl)]

/-- A turn gives what the memory has, or its search fails and the next turn asks for the same. -/
structure Interrupts (memory : MemoryStore) (p : Pager) (session : Session ScriptedStore)
    (out : Except ReadError Batch × Pager × Session ScriptedStore) : Prop where
  interrupted : out.2.2.Interrupted memory
  outcome : (out.1, out.2.1) = p.answered memory.answer ∧ out.2.2.pending ≤ session.pending ∨
    (∃ e, out.1 = .error e) ∧ (∀ answer, out.2.1.answered answer = p.answered answer) ∧
      out.2.2.pending < session.pending

theorem interrupted_countRows (h : session.Interrupted memory) (operation : Operation)
    (result : Except ReadError Batch) :
    (countRows operation result session).Interrupted memory ∧
      (Pager.countRows operation result session).pending = session.pending := by
  cases result with
  | ok batch => exact ⟨h.add _ _, rfl⟩
  | error e => exact ⟨h, rfl⟩

/-- A search that fails leaves a pager that asks for the same again. -/
theorem Interrupts.of_ask (h : session.Interrupted memory) {operation : Operation}
    {request : SearchRequest} {receive : Response → Except ReadError Batch × Pager}
    {before : Session ScriptedStore} (hpending : session.pending = before.pending)
    (hanswered : p.answered memory.answer = match memory.answer request with
      | .error e => (.error e, q)
      | .ok response => receive response)
    (hagain : ∀ answer, q.answered answer = p.answered answer) :
    p.Interrupts memory before
      (ask ScriptedStore.store operation request receive q session) := by
  obtain ⟨hnext, hcases⟩ := h.searchOrEmpty operation request
  rw [hpending] at hcases
  unfold ask
  generalize ScriptedStore.store.searchOrEmpty operation request session = out at *
  obtain ⟨result, session'⟩ := out
  rcases hcases with ⟨hresult, hle⟩ | ⟨⟨e, rfl⟩, hlt⟩
  · rw [← hresult] at hanswered
    cases result with
    | error e => exact ⟨hnext, .inl ⟨hanswered.symm, hle⟩⟩
    | ok response =>
        obtain ⟨hcount, hsame⟩ := interrupted_countRows hnext operation (receive response).1
        exact ⟨hcount, .inl ⟨hanswered.symm, hsame ▸ hle⟩⟩
  · exact ⟨hnext, .inr ⟨⟨e, rfl⟩, hagain, hlt⟩⟩

theorem TakesTurn.interrupts (h : session.Interrupted memory)
    {out : Except ReadError Batch × Pager × Session ScriptedStore}
    (hturn : TakesTurn ScriptedStore.store p session out) : p.Interrupts memory session out := by
  cases hturn with
  | done hdone => exact ⟨h, .inl ⟨(answered_of_done memory.answer hdone).symm, Nat.le_refl _⟩⟩
  | ended hlive hend =>
      exact ⟨h, .inl ⟨(answered_of_exhausted memory.answer hlive hend).symm, Nat.le_refl _⟩⟩
  | page hmore hstate paging =>
      subst paging
      exact .of_ask h rfl (answered_of_paging memory.answer hmore hstate)
        fun answer => answered_paging answer hstate
  | lost hmore hstate hlast =>
      have hanswered := answered_of_bridging memory.answer hmore hstate
      simp only [hlast] at hanswered
      exact ⟨h, .inl ⟨hanswered.symm, Nat.le_refl _⟩⟩
  | deep hmore hstate hlast hover =>
      have hanswered := answered_of_bridging memory.answer hmore hstate
      simp only [hlast, if_pos hover] at hanswered
      exact ⟨h, .inl ⟨hanswered.symm, Nat.le_refl _⟩⟩
  | part hmore hstate hlast hroom =>
      have hanswered := answered_of_bridging memory.answer hmore hstate
      simp only [hlast, if_neg (Nat.not_lt.mpr hroom)] at hanswered
      exact .of_ask (h.add .bridgeRounds 1) rfl hanswered fun _ => rfl

/-! ## Errors of the memory -/

/-- A page that makes no batch leaves only its last time behind, on which no page hangs. -/
theorem receivePage_error {response : Response} {e : ReadError}
    (h : (p.receivePage response).1 = .error e) (seen : Option Moment) :
    (({ p with lastSeen := seen } : Pager).receivePage response).1 = .error e ∧
      ∃ seen, (p.receivePage response).2 = { p with lastSeen := seen } := by
  have htakes := p.takesPage response
  rw [h] at htakes
  generalize (p.receivePage response).2 = p' at htakes
  suffices hagain : (∃ p', TakesPage { p with lastSeen := seen } response (.error e) p') ∧
      ∃ seen, p' = { p with lastSeen := seen } by
    obtain ⟨⟨_, hagain⟩, hseen⟩ := hagain
    exact ⟨congrArg Prod.fst hagain.receivePage, hseen⟩
  cases htakes with
  | unreadable hits => exact ⟨⟨_, .unreadable hits⟩, p.lastSeen, rfl⟩
  | miscounted hits more size => exact ⟨⟨_, .miscounted hits more size⟩, p.lastSeen, rfl⟩
  | blank hwhole room =>
      exact ⟨⟨_, .blank ⟨hwhole.hits, hwhole.size, hwhole.more⟩ room⟩, p.lastSeen, rfl⟩
  | stuck hends apart advance =>
      have hagain : Bounded { p with lastSeen := seen } response _ _ _ :=
        ⟨⟨hends.hits, hends.size, hends.more⟩, hends.room, hends.head, hends.getLast⟩
      exact ⟨⟨_, .stuck hagain apart advance⟩, _, rfl⟩

theorem receiveBridge_error {instant : Moment} {response : Response} {e : ReadError}
    (h : (p.receiveBridge instant response).1 = .error e) :
    (p.receiveBridge instant response).2 = p := by
  have htakes := p.takesPart instant response
  rw [h] at htakes
  generalize (p.receiveBridge instant response).2 = p' at htakes
  cases htakes with
  | unreadable | stuck | miscounted => rfl

theorem answered_error_of_paging {e : ReadError} (hmore : ¬p.Exhausted)
    (hstate : p.state = .idle ∨ p.state = .paging) (h : (p.answered answer).1 = .error e) :
    ((p.answered answer).2.answered answer).1 = .error e := by
  have hanswered := answered_of_paging answer hmore hstate
  cases hanswer : answer ({ p with state := .paging } : Pager).pageRequest with
  | error cause =>
      simp only [hanswer] at hanswered
      have hnext : (p.answered answer).2 = { p with state := .paging } :=
        congrArg Prod.snd hanswered
      rw [hnext, answered_paging answer hstate]
      exact h
  | ok response =>
      simp only [hanswer] at hanswered
      rw [hanswered] at h ⊢
      -- The time seen last has no part in a page, which therefore fails as before.
      obtain ⟨-, seen, hnext⟩ := receivePage_error h none
      have hpage : ({ p with state := .paging, lastSeen := seen } : Pager).answered answer =
          ({ p with state := .paging, lastSeen := seen } : Pager).receivePage response := by
        have hmore' : ¬({ p with state := .paging, lastSeen := seen } : Pager).Exhausted := hmore
        rw [answered_of_paging answer hmore' (.inr rfl)]
        simp only [show answer ({ p with state := .paging, lastSeen := seen } :
          Pager).pageRequest = .ok response from hanswer]
      rw [hnext, hpage]
      exact (receivePage_error h seen).1

theorem answered_error_of_bridging {e : ReadError} (hmore : ¬p.Exhausted)
    (hstate : p.state = .bridging) (h : (p.answered answer).1 = .error e) :
    (p.answered answer).2 = p := by
  rw [answered_of_bridging answer hmore hstate] at h ⊢
  split at h
  · rfl
  · split at h
    · rename_i hdeep
      rw [if_pos hdeep]
    · rename_i hdeep
      rw [if_neg hdeep]
      split at h
      · rfl
      · exact receiveBridge_error h

/-- What the memory makes fail, it makes fail again. -/
theorem answered_error {e : ReadError} (h : (p.answered answer).1 = .error e) :
    ((p.answered answer).2.answered answer).1 = .error e := by
  by_cases hdone : p.state = .done
  · rw [answered_of_done answer hdone] at h
    cases h
  by_cases hmore : p.Exhausted
  · rw [answered_of_exhausted answer hdone hmore] at h
    cases h
  cases hstate : p.state with
  | idle => exact answered_error_of_paging hmore (.inl hstate) h
  | paging => exact answered_error_of_paging hmore (.inr hstate) h
  | bridging =>
      rw [answered_error_of_bridging hmore hstate h]
      exact h
  | done => exact absurd hstate hdone

/-! ## What is handed over -/

/-- On a store that answers so, a pager hands a batch over after `n` turns without rows. -/
inductive Yields (answer : SearchRequest → Except ReadError Response) :
    Nat → Pager → Batch → Pager → Prop
  | now {p p' : Pager} {batch : Batch} (turn : p.answered answer = (.ok batch, p'))
      (rows : batch.eof = true ∨ batch.rows ≠ []) : Yields answer 0 p batch p'
  | later {p p' q : Pager} {n : Nat} {batch : Batch}
      (turn : p.answered answer = (.ok ⟨[], false⟩, q)) (rest : Yields answer n q batch p') :
      Yields answer (n + 1) p batch p'

theorem Yields.congr {n : Nat} {batch : Batch} (h : Yields answer n p batch p')
    (hq : q.answered answer = p.answered answer) : Yields answer n q batch p' := by
  cases h with
  | now turn rows => exact .now (hq.trans turn) rows
  | later turn rest => exact .later (hq.trans turn) rest

theorem Yields.unique {n m : Nat} {batch batch' : Batch} (h : Yields answer n p batch p')
    (h' : Yields answer m p batch' q) : batch' = batch ∧ q = p' := by
  induction h generalizing m with
  | now turn rows =>
      cases h' with
      | now turn' =>
          rw [turn] at turn'
          cases turn'
          exact ⟨rfl, rfl⟩
      | later turn' =>
          rw [turn] at turn'
          cases turn'
          simp at rows
  | later turn rest ih =>
      cases h' with
      | now turn' rows =>
          rw [turn] at turn'
          cases turn'
          simp at rows
      | later turn' rest' =>
          rw [turn] at turn'
          cases turn'
          exact ih rest'

theorem Yields.answered_ne {n : Nat} {batch : Batch} (h : Yields answer n p batch p')
    (e : ReadError) : (p.answered answer).1 ≠ .error e := by
  cases h with
  | now turn rows =>
      rw [turn]
      exact (nomatch ·)
  | later turn rest =>
      rw [turn]
      exact (nomatch ·)

/-- A fetch hands over what the pager yields, or it fails without a step back: the pager behind it
yields the same, and a failure or a turn less is left. -/
structure Resumes (memory : MemoryStore) (p : Pager) (session : Session ScriptedStore)
    (searches : Nat) (out : Except ReadError Batch × Pager × Session ScriptedStore) : Prop where
  interrupted : out.2.2.Interrupted memory
  batch : ∀ batch, out.1 = .ok batch → ∃ n, Yields memory.answer n p batch out.2.1
  back : ∀ e, out.1 = .error e → ∀ n batch q, Yields memory.answer n out.2.1 batch q →
    ∃ m, Yields memory.answer m p batch q
  on : ∀ e, out.1 = .error e → ∀ n batch q, Yields memory.answer n p batch q →
    ∃ m, Yields memory.answer m out.2.1 batch q ∧
      m + out.2.2.pending + min searches 1 ≤ n + session.pending

theorem Resumes.of_ok {searches n : Nat} {batch : Batch} {session' : Session ScriptedStore}
    (h : session'.Interrupted memory) (hyields : Yields memory.answer n p batch p') :
    p.Resumes memory session searches (.ok batch, p', session') where
  interrupted := h
  batch := by
    rintro _ ⟨⟩
    exact ⟨n, hyields⟩
  back := by rintro _ ⟨⟩
  on := by rintro _ ⟨⟩

theorem Resumes.of_error {searches : Nat} {e : ReadError} {session' : Session ScriptedStore}
    (h : session'.Interrupted memory)
    (hback : ∀ n batch q, Yields memory.answer n p' batch q →
      ∃ m, Yields memory.answer m p batch q)
    (hon : ∀ n batch q, Yields memory.answer n p batch q → ∃ m, Yields memory.answer m p' batch q ∧
      m + session'.pending + min searches 1 ≤ n + session.pending) :
    p.Resumes memory session searches (.error e, p', session') where
  interrupted := h
  batch := by rintro _ ⟨⟩
  back := fun _ _ => hback
  on := fun _ _ => hon

/-- A turn without rows goes on with the next one. -/
theorem Resumes.of_later {searches : Nat} {session' : Session ScriptedStore}
    {out : Except ReadError Batch × Pager × Session ScriptedStore}
    (hturn : p.answered memory.answer = (.ok ⟨[], false⟩, q))
    (hle : session'.pending ≤ session.pending) (h : q.Resumes memory session' searches out) :
    p.Resumes memory session (searches + 1) out where
  interrupted := h.interrupted
  batch := fun batch hok => by
    obtain ⟨n, hyields⟩ := h.batch batch hok
    exact ⟨n + 1, .later hturn hyields⟩
  back := fun e herror n batch r hyields => by
    obtain ⟨m, hyields⟩ := h.back e herror n batch r hyields
    exact ⟨m + 1, .later hturn hyields⟩
  on := fun e herror n batch r hyields => by
    cases hyields with
    | now turn rows =>
        rw [hturn] at turn
        cases turn
        simp at rows
    | later turn rest =>
        rw [hturn] at turn
        cases turn
        obtain ⟨m, hyields, hless⟩ := h.on e herror _ batch r rest
        exact ⟨m, hyields, by omega⟩

theorem fetchWithin_resumes (h : session.Interrupted memory) (searches : Nat) (p : Pager) :
    p.Resumes memory session searches (fetchWithin ScriptedStore.store searches p session) := by
  induction searches generalizing p session with
  | zero =>
      exact .of_error h (fun n _ _ hyields => ⟨n, hyields⟩)
        fun n _ _ hyields => ⟨n, hyields, Nat.le_refl _⟩
  | succ searches ih =>
      obtain ⟨hnext, houtcome⟩ := (takesTurn ScriptedStore.store p session).interrupts h
      unfold fetchWithin
      generalize turn ScriptedStore.store p session = out at *
      obtain ⟨result, p₁, session₁⟩ := out
      rcases houtcome with ⟨hturn, hle⟩ | ⟨⟨e, rfl⟩, hsame, hlt⟩
      · cases result with
        | error e =>
            have herror : (p.answered memory.answer).1 = .error e := by rw [← hturn]
            have hagain : (p₁.answered memory.answer).1 = .error e := by
              have := answered_error herror
              rwa [← hturn] at this
            exact .of_error hnext
              (fun _ _ _ hyields => absurd hagain (hyields.answered_ne e))
              fun _ _ _ hyields => absurd herror (hyields.answered_ne e)
        | ok batch =>
            obtain ⟨rows, eof⟩ := batch
            dsimp only
            split
            · rename_i hends
              exact .of_ok hnext (.now hturn.symm (by simpa using hends))
            · rename_i hmore
              obtain ⟨rfl, rfl⟩ : eof = false ∧ rows = [] := by simpa using hmore
              exact .of_later hturn.symm hle (ih hnext p₁)
      · have hsame : p₁.answered memory.answer = p.answered memory.answer := hsame memory.answer
        refine .of_error hnext (fun n _ _ hyields => ⟨n, hyields.congr hsame.symm⟩)
          fun n _ _ hyields => ⟨n, hyields.congr hsame, ?_⟩
        dsimp only at hlt ⊢
        omega

/-! ## Batches until the end -/

/-- The batches among the results of fetches, up to the first that ends the read. -/
def served : List (Except ReadError Batch) → List Batch
  | [] => []
  | .error _ :: results => served results
  | .ok batch :: results => if batch.eof then [batch] else batch :: served results

/-- On a store that answers so, a pager hands these batches over first. -/
inductive Hands (answer : SearchRequest → Except ReadError Response) : Pager → List Batch → Prop
  | none (p : Pager) : Hands answer p []
  | last {p p' : Pager} {n : Nat} {batch : Batch} (yields : Yields answer n p batch p')
      (eof : batch.eof = true) : Hands answer p [batch]
  | more {p p' : Pager} {n : Nat} {batch : Batch} {batches : List Batch}
      (yields : Yields answer n p batch p') (eof : batch.eof = false)
      (rest : Hands answer p' batches) : Hands answer p (batch :: batches)

theorem Hands.of_yields {batches : List Batch} (h : Hands answer p batches)
    (hq : ∀ n batch p', Yields answer n p batch p' → ∃ m, Yields answer m q batch p') :
    Hands answer q batches := by
  cases h with
  | none => exact .none q
  | last yields eof =>
      obtain ⟨m, hyields⟩ := hq _ _ _ yields
      exact .last hyields eof
  | more yields eof rest =>
      obtain ⟨m, hyields⟩ := hq _ _ _ yields
      exact .more hyields eof rest

theorem hands_cons_iff {n : Nat} {batch : Batch} {batches : List Batch}
    (hyields : Yields answer n p batch p') (heof : batch.eof = false) :
    Hands answer p (batch :: batches) ↔ Hands answer p' batches := by
  refine ⟨fun hands => ?_, fun hands => .more hyields heof hands⟩
  cases hands with
  | last yields eof =>
      rw [heof] at eof
      cases eof
  | more yields eof rest =>
      obtain ⟨-, rfl⟩ := hyields.unique yields
      exact rest

theorem fetch_resumes (h : session.Interrupted memory) (p : Pager) :
    p.Resumes memory session Word.unsignedLimit (fetch ScriptedStore.store p session) :=
  fetchWithin_resumes h Word.unsignedLimit p

theorem fetches_succ {σ : Type} (store : Store σ) (calls : Nat) (p : Pager) (session : Session σ) :
    fetches store (calls + 1) p session =
      let out := fetch store p session
      let rest := fetches store calls out.2.1 out.2.2
      (out.1 :: rest.1, rest.2) := rfl

/-- What a pager has handed over is what it would on a store without failures. -/
theorem hands_served (h : session.Interrupted memory) (calls : Nat) (p : Pager) :
    Hands memory.answer p (served (fetches ScriptedStore.store calls p session).1) := by
  induction calls generalizing p session with
  | zero => exact .none p
  | succ calls ih =>
      obtain ⟨hnext, hbatch, hback, -⟩ := fetch_resumes h p
      rw [fetches_succ]
      generalize fetch ScriptedStore.store p session = out at *
      obtain ⟨result, p', session'⟩ := out
      have hrest := ih hnext p'
      cases result with
      | error e => exact hrest.of_yields (hback e rfl)
      | ok batch =>
          obtain ⟨n, hyields⟩ := hbatch batch rfl
          simp only [served]
          split
          · rename_i heof
            exact .last hyields heof
          · rename_i heof
            exact .more hyields (Bool.eq_false_iff.mpr heof) hrest

/-- Behind any number of fetches that did not end the read, the rest of it is left. -/
theorem hands_behind (h : session.Interrupted memory) (calls : Nat) (p : Pager)
    (batches : List Batch) :
    let run := fetches ScriptedStore.store calls p session
    (∀ batch ∈ served run.1, batch.eof = false) →
      (Hands memory.answer p (served run.1 ++ batches) ↔ Hands memory.answer run.2.1 batches) := by
  induction calls generalizing p session with
  | zero => exact fun _ => Iff.rfl
  | succ calls ih =>
      obtain ⟨hnext, hbatch, hback, hon⟩ := fetch_resumes h p
      rw [fetches_succ]
      generalize fetch ScriptedStore.store p session = out at *
      obtain ⟨result, p', session'⟩ := out
      intro run hlive
      have hrest := ih hnext p'
      cases result with
      | error e =>
          rw [← hrest hlive]
          refine ⟨fun hands => hands.of_yields fun n batch q hyields => ?_,
            fun hands => hands.of_yields (hback e rfl)⟩
          obtain ⟨m, hyields, -⟩ := hon e rfl n batch q hyields
          exact ⟨m, hyields⟩
      | ok batch =>
          obtain ⟨n, hyields⟩ := hbatch batch rfl
          cases heof : batch.eof with
          | true =>
              have hserved : served run.1 = [batch] := if_pos heof
              have hmore := hlive batch (by rw [hserved]; exact List.mem_singleton_self batch)
              rw [heof] at hmore
              cases hmore
          | false =>
              have hserved : served run.1 =
                  batch :: served (fetches ScriptedStore.store calls p' session').1 :=
                if_neg (by simp [heof])
              rw [hserved] at hlive ⊢
              rw [List.cons_append, hands_cons_iff hyields heof]
              exact hrest fun other hother => hlive other (List.mem_cons_of_mem batch hother)

/-- A batch that is due is handed over once the failures before it are through. -/
theorem Yields.served {n : Nat} {batch : Batch} {batches : List Batch}
    (hyields : Yields memory.answer n p batch p') (h : session.Interrupted memory)
    (hrest : batch.eof = false → ∀ session' : Session ScriptedStore, session'.Interrupted memory →
      ∃ calls, served (fetches ScriptedStore.store calls p' session').1 = batches) :
    ∃ calls, Pager.served (fetches ScriptedStore.store calls p session).1 =
      if batch.eof then [batch] else batch :: batches := by
  induction hfuel : n + session.pending using Nat.strongRecOn generalizing n p session with
  | ind fuel ih =>
      obtain ⟨hnext, hbatch, hback, hon⟩ := fetch_resumes h p
      have hfetches := fun calls => fetches_succ ScriptedStore.store calls p session
      generalize fetch ScriptedStore.store p session = out at *
      obtain ⟨result, p₁, session₁⟩ := out
      cases result with
      | error e =>
          obtain ⟨m, hyields', hless⟩ := hon e rfl n batch p' hyields
          have hsearches : min Word.unsignedLimit 1 = 1 := rfl
          rw [hsearches, hfuel] at hless
          obtain ⟨calls, hcalls⟩ := ih (m + session₁.pending) hless hyields' hnext rfl
          refine ⟨calls + 1, ?_⟩
          rw [hfetches]
          exact hcalls
      | ok batch' =>
          obtain ⟨m, hyields'⟩ := hbatch batch' rfl
          obtain ⟨rfl, rfl⟩ := hyields.unique hyields'
          cases heof : batch'.eof with
          | true =>
              refine ⟨1, ?_⟩
              rw [hfetches]
              simp only [Pager.served, heof, ↓reduceIte]
          | false =>
              obtain ⟨calls, hcalls⟩ := hrest heof session₁ hnext
              refine ⟨calls + 1, ?_⟩
              rw [hfetches]
              simp only [Pager.served, heof, Bool.false_eq_true, ↓reduceIte, hcalls]

theorem Hands.served {batches : List Batch} (hands : Hands memory.answer p batches)
    (h : session.Interrupted memory) :
    ∃ calls, served (fetches ScriptedStore.store calls p session).1 = batches := by
  induction hands generalizing session with
  | none p => exact ⟨0, rfl⟩
  | @last p p' n batch yields eof =>
      have hrest : batch.eof = false → ∀ session' : Session ScriptedStore,
          session'.Interrupted memory →
            ∃ calls, served (fetches ScriptedStore.store calls p' session').1 = [] :=
        fun _ _ _ => ⟨0, rfl⟩
      obtain ⟨calls, hcalls⟩ := yields.served h hrest
      rw [if_pos eof] at hcalls
      exact ⟨calls, hcalls⟩
  | more yields eof rest ih =>
      obtain ⟨calls, hcalls⟩ := yields.served h fun _ _ hsession => ih hsession
      rw [if_neg (by simp [eof])] at hcalls
      exact ⟨calls, hcalls⟩

theorem exists_served_iff_hands (h : session.Interrupted memory) (p : Pager)
    (batches : List Batch) :
    (∃ calls, served (fetches ScriptedStore.store calls p session).1 = batches) ↔
      Hands memory.answer p batches :=
  ⟨fun ⟨calls, hcalls⟩ => hcalls ▸ hands_served h calls p, fun hands => hands.served h⟩

/-- The session of a store that answers from memory, save for the failures of a script. -/
def interrupted (memory : MemoryStore) (script : List ScriptEntry) : Session ScriptedStore :=
  ⟨⟨memory, script, []⟩, .zero⟩

/-- Failures cost a read nothing but calls: a caller who fetches on after each error gets the
batches of a read without failures, and whenever it has not ended, the rest of them is left to be
handed over. -/
theorem served_interrupted (p : Pager) (memory : MemoryStore) (script : List ScriptEntry)
    (hscript : ∀ entry ∈ script, entry.Interrupts) :
    let run := fun calls => fetches ScriptedStore.store calls p (interrupted memory script)
    let steady := fun q calls =>
      served (fetches ScriptedStore.store calls q (interrupted memory [])).1
    (∀ batches, (∃ calls, served (run calls).1 = batches) ↔ ∃ calls, steady p calls = batches) ∧
      ∀ calls, (∀ batch ∈ served (run calls).1, batch.eof = false) →
        ∀ batches, (∃ calls', steady p calls' = served (run calls).1 ++ batches) ↔
          ∃ calls', steady (run calls).2.1 calls' = batches := by
  intro run steady
  have hrun : (interrupted memory script).Interrupted memory := ⟨rfl, hscript⟩
  have hsteady : (interrupted memory []).Interrupted memory := ⟨rfl, fun _ h => nomatch h⟩
  refine ⟨fun batches => ?_, fun calls hlive batches => ?_⟩
  · rw [exists_served_iff_hands hrun, exists_served_iff_hands hsteady]
  · rw [exists_served_iff_hands hsteady, exists_served_iff_hands hsteady]
    exact hands_behind hrun calls p batches hlive

/-- A failure in the middle of a bridge: two documents of one time are read, the third is left. -/
theorem served_interrupted_bridge :
    let document : Members := [("at", .text "2024-05-01T10:00:00Z")]
    let memory : MemoryStore := ⟨[("logs", [document, document, document])], 10⟩
    let script : List ScriptEntry := [.answer (.error (.transport "reset"))]
    let range : TimeRange := ⟨.utc 1714550000000000000, .utc 1714560000000000000⟩
    let p : Pager := {
      start ["logs"] range ⟨"at", 2, 10⟩ none .asc none with
      state := .bridging, bridging := true, bridgeOffset := 2, emitted := 2
      lastSeen := some (.utc 1714557600000000000) }
    let run := fun calls => fetches ScriptedStore.store calls p (interrupted memory script)
    let steady := fun q calls =>
      served (fetches ScriptedStore.store calls q (interrupted memory [])).1
    (run 1).1.map Except.isOk = [false] ∧
      (∀ batches, (∃ calls, served (run calls).1 = batches) ↔ ∃ calls, steady p calls = batches) ∧
        ∀ batches, (∃ calls, steady p calls = batches) ↔
          ∃ calls, steady (run 1).2.1 calls = batches := by
  intro document memory script range p
  have hscript : ∀ entry ∈ script, entry.Interrupts := by
    simp only [script, List.mem_singleton, forall_eq]
    refine .fail (fun name hfault => ?_) fun hfault => ?_
    · cases hfault
    · cases hfault
  have hnone : served (fetches ScriptedStore.store 1 p (interrupted memory script)).1 = [] := by
    cbv
  obtain ⟨hsame, hrest⟩ := served_interrupted p memory script hscript
  have hleft := hrest 1 (by simp only [hnone, List.not_mem_nil, false_implies, implies_true])
  simp only [hnone, List.nil_append] at hleft
  exact ⟨by cbv, hsame, hleft⟩

end Pager
end Sluice
