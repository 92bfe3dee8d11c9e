import Sluice.Proofs.Retries
import Sluice.Read

/-!
What the fetches of a reduction emit together, against any store. Windows are searched some at a
time, but a drained stream has the rows of all windows one by one, with the gaps between them filled
where nothing is grouped.
-/
namespace Sluice.Aggregator

variable {σ : Type} {store : Store σ} {a : Aggregator} {left d c : Descriptor}
  {logs : Nat → List Members}

/-! ## States -/

/-- The aggregator before its next window, with the fields and the last window with rows so far. -/
def having (a : Aggregator) (descriptor : Descriptor) (next : Nat) (last : Option Nat) :
    Aggregator :=
  { a with descriptor, next, lastRowWindow := last }

theorem receiveWindow_having (a : Aggregator) (c : Descriptor) (next : Nat) (last : Option Nat)
    (index : Nat) (window : Moment × Moment) (found : List Members) (used : Descriptor) :
    (a.having c next last).receiveWindow index window found used =
      let b := a.having (c.without a.options.sizes used.emptyFields) next last
      if found.isEmpty then ([], 0, b)
      else if b.descriptor.isGrouped then (found.map (stamped window), 0, b)
      else ((b.gap index).map b.silentRow ++ found.map (stamped window), b.gapCount index,
        { b with lastRowWindow := some index }) := by
  rw [receiveWindow, dropFields_eq]
  rfl

/-- The rows of windows from window `index` on, each behind the gap before it. -/
def spread (a : Aggregator) (logs : Nat → List Members) :
    Nat → Option Nat → List (Moment × Moment) → List Row
  | _, _, [] => []
  | index, last, window :: rest =>
    if (logs index).isEmpty then a.spread logs (index + 1) last rest
    else if a.descriptor.isGrouped then
      (logs index).map (stamped window) ++ a.spread logs (index + 1) last rest
    else
      ({ a with lastRowWindow := last }.gap index).map a.silentRow ++
        (logs index).map (stamped window) ++ a.spread logs (index + 1) (some index) rest

theorem spread_congr {b : Aggregator} (hdescriptor : b.descriptor = a.descriptor)
    (hboundaries : b.boundaries = a.boundaries) (logs : Nat → List Members) (index : Nat)
    (last : Option Nat) (windows : List (Moment × Moment)) :
    b.spread logs index last windows = a.spread logs index last windows := by
  induction windows generalizing index last with
  | nil => rfl
  | cons window windows ih =>
      have hwindows : b.windows = a.windows := by
        rw [Aggregator.windows, Aggregator.windows, hboundaries]
      have hgap : { b with lastRowWindow := last }.gap index =
          { a with lastRowWindow := last }.gap index := by
        cases last with
        | none => rfl
        | some l => exact congrArg (fun windows => (windows.take index).drop (l + 1)) hwindows
      have hsilent : b.silentRow = a.silentRow := by
        funext window
        rw [silentRow, silentRow, hdescriptor]
      rw [spread, spread, hgap, hsilent, hdescriptor, ih, ih]

/-! ## Windows one by one -/

/-- An answer with the rows of window `index`. One with rows leaves the descriptor `left`, whichever
it was taken in with; one without may also leave it as it is. -/
structure Conforms (a : Aggregator) (left : Descriptor) (logs : Nat → List Members) (d : Descriptor)
    (index : Nat) (answer : List Members × Descriptor) : Prop where
  rows : answer.1 = logs index
  fields : ∀ c, c = d ∨ c = left → c.without a.options.sizes answer.2.emptyFields = left ∨
    answer.1 = [] ∧ c.without a.options.sizes answer.2.emptyFields = c

/-- A store that has these rows for the windows, whether they are searched with all group fields or
with those that are left, as long as it is `Ready` for the window that comes next. -/
structure Feeds (store : Store σ) (a : Aggregator) (left : Descriptor) (logs : Nat → List Members)
    (Ready : Nat → Session σ → Prop) : Prop where
  add : ∀ {index session}, Ready index session →
    ∀ counter n, Ready index (session.add counter n)
  next : ∀ {index session window}, a.windows[index]? = some window → Ready index session →
    ∀ d, d = a.descriptor ∨ d = left →
      Ready (index + 1) (a.fetchWindow store (Windows.clip a.range window) d session).2
  conforms : ∀ {index session window}, a.windows[index]? = some window → Ready index session →
    ∀ d, d = a.descriptor ∨ d = left → ∀ answer,
      (a.fetchWindow store (Windows.clip a.range window) d session).1 = .ok answer →
        a.Conforms left logs d index answer

/-- Every search that is ready is answered. -/
def Replies (store : Store σ) (a : Aggregator) (left : Descriptor)
    (Ready : Nat → Session σ → Prop) : Prop :=
  ∀ {index session window}, a.windows[index]? = some window → Ready index session →
    ∀ d, d = a.descriptor ∨ d = left →
      ∃ answer, (a.fetchWindow store (Windows.clip a.range window) d session).1 = .ok answer

variable {Ready : Nat → Session σ → Prop} {session : Session σ} {index next : Nat}
  {last : Option Nat} {batch rest : List (Moment × Moment)}

/-- Aggregators that ask the same of a store get the same for a window. -/
theorem fetchWindow_congr {b : Aggregator}
    (hrequest : ∀ window tree, b.request window tree = a.request window tree)
    (hsizes : b.options.sizes = a.options.sizes) (store : Store σ) (window : TimeRange)
    (d : Descriptor) (session : Session σ) :
    b.fetchWindow store window d session = a.fetchWindow store window d session := by
  have htry : ∀ d (s t : Session σ), s = t → ∃ t',
      b.tryWindow store window d t = ((a.tryWindow store window d s).1, t') ∧
        (a.tryWindow store window d s).2 = t' := by
    rintro d s _ rfl
    exact ⟨_, by rw [tryWindow, tryWindow, hrequest], rfl⟩
  obtain ⟨_, htwin, rfl⟩ := (a.searched store window d session).simulates Eq hsizes htry
    (fun _ _ h => h ▸ rfl) rfl
  exact htwin.fetchWindow_eq

/-- What a batch of windows from window `index` on is answered. -/
structure Conforming (a : Aggregator) (left : Descriptor) (logs : Nat → List Members)
    (d : Descriptor) (index : Nat)
    (results : List (Except ReadError (List Members × Descriptor))) : Prop where
  conforms : ∀ i answer, results[i]? = some (.ok answer) → a.Conforms left logs d (index + i) answer

theorem Conforming.tail {result : Except ReadError (List Members × Descriptor)}
    {results : List (Except ReadError (List Members × Descriptor))}
    (h : a.Conforming left logs d index (result :: results)) :
    a.Conforming left logs d (index + 1) results where
  conforms := fun i answer hanswer => by
    have hconforms := h.conforms (i + 1) answer (by simpa using hanswer)
    rwa [show index + (i + 1) = index + 1 + i by omega] at hconforms

theorem Feeds.fetchWindows (h : Feeds store a left logs Ready) (hready : Ready index session)
    (hd : d = a.descriptor ∨ d = left) (hdrop : a.windows.drop index = batch ++ rest) (next : Nat)
    (last : Option Nat) :
    let out := (a.having d next last).fetchWindows store batch session
    Ready (index + batch.length) out.2 ∧ out.1.length = batch.length ∧
      a.Conforming left logs d index out.1 ∧
      (Replies store a left Ready → ∀ result ∈ out.1, ∃ answer, result = .ok answer) := by
  induction batch generalizing index session with
  | nil => exact ⟨hready, rfl, ⟨fun i _ hanswer => by simp [Aggregator.fetchWindows] at hanswer⟩,
      fun _ _ hmem => nomatch hmem⟩
  | cons window batch ih =>
      have hwindow : a.windows[index]? = some window := by
        rw [← List.head?_drop, hdrop]
        rfl
      have htail : a.windows.drop (index + 1) = batch ++ rest := by
        rw [← List.drop_drop, hdrop]
        rfl
      have hconforms := h.conforms hwindow hready d hd
      have hreplies : Replies store a left Ready → _ := fun hall => hall hwindow hready d hd
      obtain ⟨hnext, hlength, hconforming, hanswered⟩ := ih (h.next hwindow hready d hd) htail
      rw [Aggregator.fetchWindows]
      have hsame :
          (a.having d next last).fetchWindow store (Windows.clip a.range window) d session =
            a.fetchWindow store (Windows.clip a.range window) d session :=
        @fetchWindow_congr σ a (a.having d next last) (fun _ _ => rfl) rfl store _ d session
      have hrange : (a.having d next last).range = a.range := rfl
      have hdescriptor : (a.having d next last).descriptor = d := rfl
      rw [hrange, hdescriptor, hsame]
      dsimp only
      refine ⟨?_, ?_, ⟨fun i answer hanswer => ?_⟩, fun hall result hmem => ?_⟩
      · rw [List.length_cons, Nat.add_comm batch.length, ← Nat.add_assoc]
        exact hnext
      · rw [List.length_cons, List.length_cons, hlength]
      · cases i with
        | zero => exact hconforms answer (by simpa using hanswer)
        | succ i =>
            have := hconforming.conforms i answer (by simpa using hanswer)
            rwa [show index + 1 + i = index + (i + 1) by omega] at this
      · rcases List.mem_cons.mp hmem with rfl | hmem
        · exact hreplies hall
        · exact hanswered hall result hmem

/-- Taking in the answer of a window emits its rows, behind the gap before it. -/
theorem Conforms.receiveWindow {answer : List Members × Descriptor}
    (h : a.Conforms left logs d index answer) (hc : c = d ∨ c = left) (window : Moment × Moment)
    (next : Nat) (last : Option Nat) :
    ∃ rows filled c' last', (a.having c next last).receiveWindow index window answer.1 answer.2 =
        (rows, filled, a.having c' next last') ∧ (c' = d ∨ c' = left) ∧
      ∀ rest, (a.having left 0 none).spread logs index last (window :: rest) =
        rows ++ (a.having left 0 none).spread logs (index + 1) last' rest := by
  obtain ⟨found, used⟩ := answer
  obtain ⟨hrows, hfields⟩ := h
  have hleft := hfields c hc
  simp only at hrows hleft
  subst hrows
  rw [receiveWindow_having]
  simp only [spread]
  split
  · rename_i hnone
    refine ⟨[], 0, _, last, rfl, ?_, fun _ => rfl⟩
    rcases hleft with hleft | ⟨-, hsame⟩
    · exact .inr hleft
    · rw [hsame]
      exact hc
  · rename_i hsome
    have hleft : c.without a.options.sizes used.emptyFields = left :=
      hleft.resolve_right fun hnone => hsome (by rw [hnone.1]; rfl)
    rw [hleft]
    split
    · rename_i hgrouped
      exact ⟨_, 0, left, last, rfl, .inr rfl, fun _ => if_pos hgrouped⟩
    · rename_i hungrouped
      exact ⟨_, _, left, some index, rfl, .inr rfl, fun _ => if_neg hungrouped⟩

theorem Feeds.receive (h : Feeds store a left logs Ready)
    {results : List (Except ReadError (List Members × Descriptor))}
    (hlength : results.length = batch.length) (hconforming : a.Conforming left logs d index results)
    (hc : c = d ∨ c = left) {behind : Nat} (hready : Ready behind session) (next : Nat)
    (last : Option Nat) :
    ∃ result c' last' session', Ready behind session' ∧ (c' = d ∨ c' = left) ∧
      (a.having c next last).receive session index (batch.zip results) =
        (result, a.having c' next last', session') ∧
      (∀ rows, result = .ok rows → ∀ rest,
        (a.having left 0 none).spread logs index last (batch ++ rest) =
          rows ++ (a.having left 0 none).spread logs (index + batch.length) last' rest) ∧
      ((∀ result ∈ results, ∃ answer, result = .ok answer) → ∃ rows, result = .ok rows) := by
  induction batch generalizing index results c last session with
  | nil =>
      refine ⟨.ok [], c, last, session, hready, hc, rfl, fun rows hrows rest => ?_,
        fun _ => ⟨[], rfl⟩⟩
      cases hrows
      rfl
  | cons window batch ih =>
      match results with
      | .error e :: results =>
          refine ⟨.error e, c, last, session, hready, hc, rfl, (nomatch ·, ·), fun hall => ?_⟩
          obtain ⟨_, hok⟩ := hall _ List.mem_cons_self
          cases hok
      | .ok answer :: results =>
          obtain ⟨rows, filled, c₁, last₁, hreceive, hc₁, hspread⟩ :=
            (hconforming.conforms 0 answer rfl).receiveWindow hc window next last
          rw [Nat.add_zero] at hreceive hspread
          obtain ⟨result, c₂, last₂, session₂, hready₂, hc₂, hrest, hok, hanswered⟩ :=
            ih (Nat.succ.inj hlength) hconforming.tail hc₁ (h.add hready .backfilledRows filled)
              last₁
          rw [List.zip_cons_cons, receive_ok, hreceive]
          simp only [hrest]
          refine ⟨_, c₂, last₂, session₂, hready₂, hc₂, rfl, fun all hall rest => ?_,
            fun hall => ?_⟩
          · cases result with
            | error e => cases hall
            | ok more =>
                cases hall
                rw [List.cons_append, hspread, hok more rfl, List.append_assoc, List.length_cons,
                  Nat.add_comm batch.length, ← Nat.add_assoc]
          · obtain ⟨more, rfl⟩ :=
              hanswered fun result hmem => hall result (List.mem_cons_of_mem _ hmem)
            exact ⟨_, rfl⟩

/-! ## Fetches -/

theorem spread_end (a : Aggregator) (logs : Nat → List Members) (index : Nat) (last : Option Nat)
    (hend : a.windows.length ≤ index) : a.spread logs index last (a.windows.drop index) = [] := by
  rw [List.drop_eq_nil_of_le hend]
  rfl

/-- A batch of the rows that are still to come, and the window that comes next. -/
structure Continues (a : Aggregator) (left : Descriptor) (logs : Nat → List Members) (next : Nat)
    (last : Option Nat) (batch : Batch) (next' : Nat) (last' : Option Nat) : Prop where
  rows : (a.having left 0 none).spread logs next last (a.windows.drop next) =
    batch.rows ++ (a.having left 0 none).spread logs next' last' (a.windows.drop next')
  eof : batch.eof = true → a.windows.length ≤ next'
  ahead : batch.eof = false → next < next' ∧ next' < a.windows.length

theorem Feeds.fetch (h : Feeds store a left logs Ready) (hready : Ready next session)
    (hd : d = a.descriptor ∨ d = left) (last : Option Nat) :
    ∃ result d' next' last' session', (a.having d next last).fetch store session =
        (result, a.having d' next' last', session') ∧ (d' = a.descriptor ∨ d' = left) ∧
      (∀ batch, result = .ok batch →
        Ready next' session' ∧ a.Continues left logs next last batch next' last') ∧
      (Replies store a left Ready → ∃ batch, result = .ok batch) := by
  have hwindows : (a.having d next last).windows = a.windows := rfl
  by_cases hend : a.windows.length ≤ next
  · refine ⟨.ok ⟨[], true⟩, d, next, last, session, fetch_end store session hend, hd,
      fun batch hbatch => ?_, fun _ => ⟨_, rfl⟩⟩
    cases hbatch
    exact ⟨hready, ⟨rfl, fun _ => hend, (nomatch ·)⟩⟩
  · let batch := (a.having d next last).batch
    have hdrop : a.windows.drop next =
        batch ++ (a.windows.drop next).drop (max a.options.concurrency 1) :=
      (List.take_append_drop _ _).symm
    have hlength : 0 < batch.length := by
      have : batch = (a.windows.drop next).take (max a.options.concurrency 1) := rfl
      rw [this, List.length_take, List.length_drop]
      omega
    obtain ⟨hbehind, hresults, hconforming, hanswered⟩ := h.fetchWindows hready hd hdrop next last
    obtain ⟨result, d', last', session', hready', hd', hreceive, hok, hall⟩ :=
      h.receive hresults hconforming (.inl rfl) hbehind next last
    have hleft : d' = a.descriptor ∨ d' = left := by
      rcases hd' with rfl | rfl
      · exact hd
      · exact .inr rfl
    have hattempt : (a.having d next last).attempt store session =
        (result, a.having d' next last', session') := hreceive
    rw [fetch_next store session hend, hattempt]
    cases result with
    | error e =>
        refine ⟨.error e, d', next, last', session', rfl, hleft, (nomatch ·, ·), fun hreplies => ?_⟩
        obtain ⟨_, hrows⟩ := hall (hanswered hreplies)
        cases hrows
    | ok rows =>
        refine ⟨_, d', next + batch.length, last', _, rfl, hleft, fun out hout => ?_,
          fun _ => ⟨_, rfl⟩⟩
        cases hout
        refine ⟨h.add hready' _ _, ?_, of_decide_eq_true, fun hmore =>
          ⟨Nat.lt_add_of_pos_right hlength, Nat.lt_of_not_le (of_decide_eq_false hmore)⟩⟩
        have hrest : a.windows.drop (next + batch.length) =
            (a.windows.drop next).drop (max a.options.concurrency 1) := by
          rw [← List.drop_drop]
          conv_lhs => rw [hdrop, List.drop_left]
        rw [hrest]
        conv_lhs => rw [hdrop]
        exact hok rows rfl _

/-- A drained stream has the rows of all windows, however many are searched at once. -/
theorem Feeds.collect (h : Feeds store a left logs Ready) (next : Nat) (hready : Ready next session)
    (hd : d = a.descriptor ∨ d = left) (last : Option Nat) (fetches : Nat) :
    let stream := (Stream.collect (fun a session => a.fetch store session) fetches none
      (a.having d next last) session).1
    (stream.error = none → stream.batches.flatten =
      (a.having left 0 none).spread logs next last (a.windows.drop next)) ∧
    (Replies store a left Ready → a.windows.length - next < fetches → stream.error = none) := by
  induction fetches generalizing session d next last with
  | zero => exact ⟨(nomatch ·), fun _ hlt => absurd hlt (Nat.not_lt_zero _)⟩
  | succ fetches ih =>
      obtain ⟨result, d', next', last', session', hfetch, hd', hok, hanswered⟩ :=
        h.fetch hready hd last
      dsimp only
      unfold Stream.collect
      simp only [reduceCtorEq, ↓reduceIte, hfetch]
      cases result with
      | error e =>
          refine ⟨(nomatch ·), fun hall => ?_⟩
          obtain ⟨_, hbatch⟩ := hanswered hall
          cases hbatch
      | ok batch =>
          obtain ⟨hready', hrows, heof, hahead⟩ := hok batch rfl
          obtain ⟨hrest, hend⟩ := ih next' hready' hd' last'
          obtain ⟨rows, eof⟩ := batch
          rw [hrows]
          cases eof with
          | true =>
              have hnone := (a.having left 0 none).spread_end logs next' last' (heof rfl)
              have hwindows : (a.having left 0 none).windows = a.windows := rfl
              rw [hwindows] at hnone
              rw [hnone]
              cases rows with
              | nil => exact ⟨fun _ => rfl, fun _ _ => rfl⟩
              | cons row rows => exact ⟨fun _ => by simp, fun _ _ => rfl⟩
          | false =>
              have hless := hahead rfl
              have hend' : Replies store a left Ready → a.windows.length - next < fetches + 1 → _ :=
                fun hall hlt => hend hall (by omega)
              cases rows with
              | nil => exact ⟨hrest, hend'⟩
              | cons row rows =>
                  exact ⟨fun herror => congrArg ((row :: rows) ++ ·) (hrest herror), hend'⟩

/-! ## Gaps -/

/-- The rows of window `index` in a stream without gaps: those it has or, without any, the row of no
documents with its lost fields null, each at the end of the window. -/
def windowRows (a : Aggregator) (logs : Nat → List Members) (index : Nat) : List Row :=
  match a.boundaries[index + 1]? with
  | none => []
  | some boundary =>
    let nulled := a.descriptor.emptyFields.foldl (fun log field => Members.insert field .null log)
      a.descriptor.emptyRow
    let found := if (logs index).isEmpty then [nulled] else logs index
    found.map fun log => ⟨Members.insert timeKey (.text boundary.format) log, true⟩

variable {window : Moment × Moment} {first stop : Nat}

theorem boundaries_of_windows (hwindow : a.windows[index]? = some window) :
    a.boundaries[index + 1]? = some window.2 := by
  have hsecond := (List.getElem?_zip_eq_some.mp hwindow).2
  rwa [List.getElem?_tail] at hsecond

theorem windowRows_silent (hwindow : a.windows[index]? = some window) (hsilent : logs index = []) :
    a.windowRows logs index = [a.silentRow window] := by
  simp only [windowRows, boundaries_of_windows hwindow, hsilent, List.isEmpty_nil, ↓reduceIte]
  rfl

theorem windowRows_populated (hwindow : a.windows[index]? = some window)
    (hrows : logs index ≠ []) : a.windowRows logs index = (logs index).map (stamped window) := by
  have hsome : ¬(logs index).isEmpty = true := by simpa using hrows
  simp only [windowRows, boundaries_of_windows hwindow, if_neg hsome]
  rfl

theorem time?_of_mem_windowRows {row : Row} (hrow : row ∈ a.windowRows logs index) :
    ∃ boundary, a.boundaries[index + 1]? = some boundary ∧
      row.time? = some (.text boundary.format) ∧ row.epsilon = true := by
  unfold windowRows at hrow
  split at hrow
  · cases hrow
  · rename_i boundary hboundary
    obtain ⟨log, -, rfl⟩ := List.mem_map.mp hrow
    exact ⟨boundary, hboundary, Members.get?_insert_self timeKey _ log, rfl⟩

theorem drop_eq_cons (hwindow : a.windows[index]? = some window) :
    a.windows.drop index = window :: a.windows.drop (index + 1) := by
  obtain ⟨hlt, rfl⟩ := List.getElem?_eq_some_iff.mp hwindow
  exact List.drop_eq_getElem_cons hlt

theorem map_silentRow_gap (logs : Nat → List Members) {count : Nat}
    (hconforms : index + count ≤ a.windows.length)
    (hsilent : ∀ i, index ≤ i → i < index + count → logs i = []) :
    ((a.windows.drop index).take count).map a.silentRow =
      (List.range' index count).flatMap (a.windowRows logs) := by
  induction count generalizing index with
  | zero => rfl
  | succ count ih =>
      have hwindow := List.getElem?_eq_getElem (show index < a.windows.length by omega)
      have hrest := ih (show index + 1 + count ≤ a.windows.length by omega) fun i hi hlt =>
        hsilent i (by omega) (by omega)
      rw [drop_eq_cons hwindow, List.take_succ_cons, List.map_cons, hrest, List.range'_succ,
        List.flatMap_cons, windowRows_silent hwindow (hsilent index (Nat.le_refl _) (by omega))]
      rfl

theorem spread_silent (hsilent : ∀ i, index ≤ i → logs i = []) (last : Option Nat)
    (windows : List (Moment × Moment)) : a.spread logs index last windows = [] := by
  induction windows generalizing index with
  | nil => rfl
  | cons window windows ih =>
      rw [spread, hsilent index (Nat.le_refl _)]
      exact ih fun i hi => hsilent i (Nat.le_of_succ_le hi)

theorem range'_split {l : Nat} (hl : l < index) (hindex : index ≤ stop) :
    List.range' (l + 1) (stop - l) =
      List.range' (l + 1) (index - (l + 1)) ++ index :: List.range' (index + 1) (stop - index) := by
  obtain ⟨k, rfl⟩ := Nat.exists_eq_add_of_le (Nat.succ_le_of_lt hl)
  rw [← List.range'_succ, Nat.succ_eq_add_one, Nat.add_sub_cancel_left, List.range'_append_1]
  congr 1
  omega

/-- Behind a window with rows, all windows show up to the last one with rows. -/
theorem spread_behind (hgrouped : a.descriptor.isGrouped = false) {l : Nat} (hl : l < index)
    (hsilent : ∀ i, l < i → i < index → logs i = []) (hle : l ≤ stop)
    (hlt : stop < a.windows.length) (hstop : IsGreatest {i | logs i ≠ []} stop) :
    a.spread logs index (some l) (a.windows.drop index) =
      (List.range' (l + 1) (stop - l)).flatMap (a.windowRows logs) := by
  induction hn : stop + 1 - index generalizing index l with
  | zero =>
      obtain rfl : l = stop := by
        by_contra hne
        exact hstop.1 (hsilent stop (by omega) (by omega))
      rw [Nat.sub_self]
      refine spread_silent (fun i hi => ?_) (some l) _
      by_contra hne
      have := hstop.2 hne
      omega
  | succ n ih =>
      have hwindow := List.getElem?_eq_getElem (show index < a.windows.length by omega)
      rw [drop_eq_cons hwindow, spread]
      by_cases hrows : logs index = []
      · rw [hrows, if_pos List.isEmpty_nil]
        refine ih (Nat.lt_succ_of_lt hl) (fun i hi hless => ?_) hle (by omega)
        rcases Nat.lt_or_ge i index with h | h
        · exact hsilent i hi h
        · obtain rfl : i = index := by omega
          exact hrows
      · have hgap : ({ a with lastRowWindow := some l }.gap index).map a.silentRow =
            (List.range' (l + 1) (index - (l + 1))).flatMap (a.windowRows logs) := by
          have hslice : { a with lastRowWindow := some l }.gap index =
              (a.windows.drop (l + 1)).take (index - (l + 1)) := List.drop_take
          rw [hslice]
          exact map_silentRow_gap logs (by omega) fun i hi hless => hsilent i hi (by omega)
        have hrest := ih (Nat.lt_succ_self index) (fun i hi hless => by omega) (by omega) (by omega)
        rw [if_neg (by simpa using hrows), if_neg (by simp [hgrouped]), hgap, hrest,
          range'_split hl (by omega), List.flatMap_append, List.flatMap_cons,
          windowRows_populated hwindow hrows, List.append_assoc]

/-- A stream that is not grouped has rows for all windows from the first with rows to the last. -/
theorem spread_gapless (hgrouped : a.descriptor.isGrouped = false)
    (hlt : ∀ i, logs i ≠ [] → i < a.windows.length) (hfirst : IsLeast {i | logs i ≠ []} first)
    (hstop : IsGreatest {i | logs i ≠ []} stop) :
    a.spread logs 0 none a.windows =
      (List.range' first (stop + 1 - first)).flatMap (a.windowRows logs) := by
  have hle : first ≤ stop := hfirst.2 hstop.1
  have hwindow := List.getElem?_eq_getElem (hlt first hfirst.1)
  have hskip : ∀ index ≤ first, a.spread logs index none (a.windows.drop index) =
      a.spread logs first none (a.windows.drop first) := by
    intro index hindex
    induction hn : first - index generalizing index with
    | zero =>
        obtain rfl : index = first := by omega
        rfl
    | succ n ih =>
        have hless : index < a.windows.length := by
          have := hlt first hfirst.1
          omega
        have hsilent : logs index = [] := by
          by_contra hne
          have := hfirst.2 hne
          omega
        rw [drop_eq_cons (List.getElem?_eq_getElem hless), spread, hsilent,
          if_pos List.isEmpty_nil]
        exact ih (index + 1) (by omega) (by omega)
  have hstart := hskip 0 (Nat.zero_le first)
  rw [List.drop_zero] at hstart
  have hrest := spread_behind hgrouped (Nat.lt_succ_self first)
    (fun i hi hless => absurd hi (Nat.not_lt_of_le (Nat.le_of_lt_succ hless))) hle
    (hlt stop hstop.1) hstop
  rw [hstart, drop_eq_cons hwindow, spread, if_neg (by simpa using hfirst.1),
    if_neg (by simp [hgrouped]), hrest, show stop + 1 - first = stop - first + 1 by omega,
    List.range'_succ, List.flatMap_cons, windowRows_populated hwindow hfirst.1]
  rfl

/-! ## Ungrouped streams -/

/-- What a store says to windows that are searched one after the other. -/
def replies (a : Aggregator) (store : Store σ) :
    List (Moment × Moment) → Session σ → List (Except ReadError Response)
  | [], _ => []
  | window :: rest, session =>
    let out := store.searchOrEmpty .aggregateBucket
      (a.request (Windows.clip a.range window) a.descriptor.tree) session
    out.1 :: a.replies store rest out.2

theorem replies_apart {gap : Counter → Int} {s t : Session σ} (a : Aggregator) (store : Store σ)
    (windows : List (Moment × Moment)) (h : s.Apart gap t) :
    a.replies store windows s = a.replies store windows t := by
  induction windows generalizing s t with
  | nil => rfl
  | cons window windows ih =>
      obtain ⟨hreply, hafter⟩ := store.searchOrEmpty_apart .aggregateBucket
        (a.request (Windows.clip a.range window) a.descriptor.tree) h
      rw [replies, replies]
      exact List.cons_eq_cons.mpr ⟨hreply, ih hafter⟩

theorem length_replies (a : Aggregator) (store : Store σ) (windows : List (Moment × Moment))
    (session : Session σ) : (a.replies store windows session).length = windows.length := by
  induction windows generalizing session with
  | nil => rfl
  | cons window windows ih => exact congrArg (· + 1) (ih _)

theorem apart_add (session : Session σ) (counter : Counter) (n : Nat) :
    (session.add counter n).Apart (fun other => if other = counter then n else 0) session where
  store := rfl
  counters := fun other => by
    rw [Session.add, Counters.count_add]
    split <;> simp

/-- The replies to the windows from window `index` on decode to these rows. -/
def Decodes (store : Store σ) (a : Aggregator) (logs : List (List Members)) (index : Nat)
    (session : Session σ) : Prop :=
  (a.replies store (a.windows.drop index) session).map (·.bind (rowsOf a.descriptor)) =
    (logs.drop index).map .ok

theorem Decodes.fetchWindow {logs : List (List Members)} (h : Decodes store a logs index session)
    (hgrouping : a.descriptor.grouping = []) (hwindow : a.windows[index]? = some window) :
    ∃ session', a.fetchWindow store (Windows.clip a.range window) a.descriptor session =
        (.ok (logs.getD index [], a.descriptor), session') ∧
      Decodes store a logs (index + 1) session' := by
  rw [Decodes, drop_eq_cons hwindow, replies, List.map_cons] at h
  cases hlogs : logs.drop index with
  | nil =>
      rw [hlogs] at h
      cases h
  | cons log rest =>
      have htail : logs.drop (index + 1) = rest := by
        rw [← List.drop_drop, hlogs]
        rfl
      have hlog : logs.getD index [] = log := by
        rw [List.getD_eq_getElem?_getD, ← List.head?_drop, hlogs]
        rfl
      rw [hlogs, List.map_cons] at h
      obtain ⟨hreply, hrest⟩ := List.cons_eq_cons.mp h
      rw [fetchWindow_of_known fun _ _ _ _ => hgrouping ▸ List.not_mem_nil, tryWindow]
      simp only [hreply, hlog]
      refine ⟨_, rfl, ?_⟩
      rw [Decodes, htail]
      exact hrest

theorem Decodes.feeds {logs : List (List Members)} (hgrouping : a.descriptor.grouping = []) :
    Feeds store a a.descriptor (fun index => logs.getD index []) (Decodes store a logs) ∧
      Replies store a a.descriptor (Decodes store a logs) := by
  have hkept : a.descriptor.without a.options.sizes a.descriptor.emptyFields = a.descriptor :=
    Descriptor.without_self _ _
  refine ⟨⟨fun h counter n => ?_, fun hwindow h d hd => ?_,
    fun hwindow h d hd answer hanswer => ?_⟩, fun hwindow h d hd => ?_⟩
  · rw [Decodes, replies_apart a store _ (apart_add _ counter n)]
    exact h
  all_goals
    obtain rfl : d = a.descriptor := hd.elim id id
    obtain ⟨session', hfetch, hnext⟩ := Decodes.fetchWindow h hgrouping hwindow
  · rw [hfetch]
    exact hnext
  · rw [hfetch] at hanswer
    cases hanswer
    exact ⟨rfl, fun c hc => .inl ((hc.elim id id) ▸ hkept)⟩
  · exact ⟨_, congrArg Prod.fst hfetch⟩

theorem start?_eq_having {patterns : List String} {range : TimeRange} {descriptor : Descriptor}
    {options : WindowOptions} {filter : Option Json}
    (h : start? patterns range descriptor options filter = .ok a) :
    a.descriptor = descriptor ∧ a = a.having a.descriptor 0 none := by
  unfold start? at h
  cases hboundaries : Windows.boundaries range descriptor.every descriptor.phase with
  | error e =>
      rw [hboundaries] at h
      cases h
  | ok boundaries =>
      rw [hboundaries] at h
      cases h
      exact ⟨rfl, rfl⟩

/-- Where nothing is grouped and every reply decodes, a stream has the rows of each window from the
first with rows to the last in order, and one row for each window without rows between them. -/
theorem collect_gapless {patterns : List String} {range : TimeRange} {descriptor : Descriptor}
    {options : WindowOptions} {filter : Option Json} {logs : List (List Members)} {fetches : Nat}
    (hgrouping : descriptor.grouping = [])
    (hstart : start? patterns range descriptor options filter = .ok a)
    (hlogs : (a.replies store a.windows session).map (·.bind (rowsOf descriptor)) =
      logs.map .ok)
    (hfetches : a.windows.length < fetches) :
    let stream := (Stream.collect (fun a session => a.fetch store session) fetches none a session).1
    let populated := {index | logs.getD index [] ≠ []}
    let rows := a.windowRows fun index => logs.getD index []
    stream.error = none ∧ (populated = ∅ → stream.batches.flatten = []) ∧
      (∀ first stop, IsLeast populated first → IsGreatest populated stop →
        stream.batches.flatten = (List.range' first (stop + 1 - first)).flatMap rows) ∧
      ∀ index, ∀ row ∈ rows index, ∃ boundary, a.boundaries[index + 1]? = some boundary ∧
        row.time? = some (.text boundary.format) ∧ row.epsilon = true := by
  obtain ⟨rfl, hhaving⟩ := start?_eq_having hstart
  intro stream populated rows
  have hready : Decodes store a logs 0 session := by
    rw [Decodes, List.drop_zero, List.drop_zero]
    exact hlogs
  obtain ⟨hfeeds, hreplies⟩ := @Decodes.feeds _ store a logs hgrouping
  obtain ⟨hflatten, hend⟩ := hfeeds.collect 0 hready (.inl rfl) none fetches
  rw [← hhaving, List.drop_zero] at hflatten
  rw [← hhaving] at hend
  have herror : stream.error = none := hend hreplies (by rwa [Nat.sub_zero])
  have hgrouped : a.descriptor.isGrouped = false := by
    rw [Descriptor.isGrouped, hgrouping]
    rfl
  have hlength : logs.length = a.windows.length := by
    have hlength := congrArg List.length hlogs
    rw [List.length_map, List.length_map, length_replies] at hlength
    exact hlength.symm
  have hlt : ∀ index, logs.getD index [] ≠ [] → index < a.windows.length := by
    intro index hrows
    by_contra hle
    exact hrows (List.getD_eq_default _ _ (by omega))
  refine ⟨herror, fun hnone => ?_, fun first stop hfirst hstop => ?_,
    fun index row => time?_of_mem_windowRows⟩
  · rw [hflatten herror]
    refine spread_silent (fun index _ => ?_) none _
    by_contra hrows
    exact Set.eq_empty_iff_forall_notMem.mp hnone index hrows
  · rw [hflatten herror]
    exact spread_gapless hgrouped hlt hfirst hstop

/-- Five windows in batches of two, of which the second and the fifth have documents. -/
theorem collect_gapless_minutes :
    let descriptor : Descriptor :=
      ⟨[], some "count", [("count", .nat 0)], [], some (.millis 60000), none, []⟩
    let range : TimeRange := ⟨.utc 1704067200000000000, .utc 1704067500000000000⟩
    let counted : ScriptEntry := .answer (.ok ⟨3, [], []⟩)
    let quiet : ScriptEntry := .answer (.ok .empty)
    let store : ScriptedStore := ⟨⟨[], 10000⟩, [quiet, counted, quiet, quiet, counted], []⟩
    let logs : List (List Members) := [[], [[("count", .nat 3)]], [], [], [[("count", .nat 3)]]]
    ∃ a, start? ["logs"] range descriptor ⟨"@timestamp", 2, .standard⟩ none = .ok a ∧
      let stream := (Stream.collect (fun a session => a.fetch ScriptedStore.store session) 6 none a
        ⟨store, .zero⟩).1
      stream.batches.flatten.map (fun row => Members.get? "count" row.log) =
        [some (.nat 3), some (.nat 0), some (.nat 0), some (.nat 3)] ∧
      stream.batches.flatten =
        (List.range' 1 4).flatMap (a.windowRows fun index => logs.getD index []) := by
  intro descriptor range counted quiet store logs
  let a : Aggregator := {
    indices := ["logs"], filter := none, options := ⟨"@timestamp", 2, .standard⟩, descriptor, range
    boundaries := [.utc 1704067200000000000, .utc 1704067260000000000,
      .utc 1704067320000000000, .utc 1704067380000000000, .utc 1704067440000000000,
      .utc 1704067500000000000]
    next := 0, lastRowWindow := none }
  have hstart : start? ["logs"] range descriptor ⟨"@timestamp", 2, .standard⟩ none = .ok a := by cbv
  have hlogs : (a.replies ScriptedStore.store a.windows ⟨store, .zero⟩).map
      (·.bind (rowsOf descriptor)) = logs.map .ok := by cbv
  have hpopulated : ∀ index, logs.getD index [] ≠ [] → 1 ≤ index ∧ index ≤ 4 := by
    intro index hrows
    by_contra hout
    rcases Nat.eq_zero_or_pos index with rfl | hpos
    · exact hrows rfl
    · exact hrows (List.getD_eq_default _ _ (by simp [logs]; omega))
  obtain ⟨-, -, hrows, -⟩ := @collect_gapless _ ScriptedStore.store a ⟨store, .zero⟩ ["logs"] range
    descriptor ⟨"@timestamp", 2, .standard⟩ none logs 6 rfl hstart hlogs (by decide)
  refine ⟨a, hstart, by cbv, hrows 1 4 ⟨by simp [logs], fun index h => (hpopulated index h).1⟩
    ⟨by simp [logs], fun index h => (hpopulated index h).2⟩⟩

end Sluice.Aggregator
