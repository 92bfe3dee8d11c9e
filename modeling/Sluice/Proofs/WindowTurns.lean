import Mathlib.Data.List.DropRight
import Sluice.Proofs.WindowCounts
import Sluice.Proofs.WindowStreams

/-!
Turns of a pushed count. However many windows are searched at once, the turns together emit what the
windows yield one by one, with the gaps between windows filled where nothing is grouped.
-/
namespace Sluice

theorem rdropWhile_append_cons {α : Type} {p : α → Bool} {x : α} (h : p x = false)
    (before behind : List α) :
    (before ++ x :: behind).rdropWhile p = before ++ x :: behind.rdropWhile p := by
  have hreverse : (before ++ x :: behind).reverse = behind.reverse ++ x :: before.reverse := by simp
  rw [List.rdropWhile, hreverse, List.dropWhile_append]
  split
  · rename_i hnone
    rw [List.isEmpty_iff] at hnone
    rw [List.rdropWhile, hnone, List.dropWhile_cons_of_neg (by simp [h])]
    simp
  · rw [List.rdropWhile]
    simp

namespace Aggregator

variable {memory : MemoryStore} {a : Aggregator} {target : String}

/-! ## What is owed -/

/-- The aggregator before its next window, with the last window that had rows. -/
def resume (a : Aggregator) (next : Nat) (last : Option Nat) : Aggregator :=
  { a with next, lastRowWindow := last }

/-- Whether a window has no rows. -/
def silent (memory : MemoryStore) (a : Aggregator) (target : String) (window : Moment × Moment) :
    Bool :=
  (a.logs memory target window).isEmpty

/-- The rows that a window has in the stream, where gaps are filled. -/
def rowsAt (memory : MemoryStore) (a : Aggregator) (target : String) (window : Moment × Moment) :
    List Row :=
  if a.silent memory target window then [a.silentRow window]
  else (a.logs memory target window).map (stamped window)

/-- The windows that may still show: those behind the last one with rows, or without such a one
those from the next with rows on. -/
def pending (memory : MemoryStore) (a : Aggregator) (target : String) (last : Option Nat)
    (index : Nat) : List (Moment × Moment) :=
  match last with
  | none => (a.windows.drop index).dropWhile (a.silent memory target)
  | some last => a.windows.drop (last + 1)

/-- The rows that are still to be emitted from window `index` on. -/
def owed (memory : MemoryStore) (a : Aggregator) (target : String) (last : Option Nat)
    (index : Nat) : List Row :=
  if a.descriptor.isGrouped then
    (a.windows.drop index).flatMap fun window => (a.logs memory target window).map (stamped window)
  else
    ((a.pending memory target last index).rdropWhile (a.silent memory target)).flatMap
      (a.rowsAt memory target)

/-- Since the last window with rows there were none. -/
structure Quiet (memory : MemoryStore) (a : Aggregator) (target : String) (last : Option Nat)
    (index : Nat) : Prop where
  grouped : a.descriptor.isGrouped = true → last = none
  before : ∀ l, last = some l → l < index
  silent : ∀ l, last = some l →
    ∀ window ∈ (a.windows.take index).drop (l + 1), a.silent memory target window = true

theorem quiet_none (index : Nat) : a.Quiet memory target none index where
  grouped := fun _ => rfl
  before := fun _ h => nomatch h
  silent := fun _ h => nomatch h

theorem Quiet.owed_end {last : Option Nat} {index : Nat} (h : a.Quiet memory target last index)
    (hend : a.windows.length ≤ index) : a.owed memory target last index = [] := by
  have hdrop : a.windows.drop index = [] := List.drop_eq_nil_of_le hend
  have htake : a.windows.take index = a.windows := List.take_of_length_le hend
  rw [owed, hdrop]
  split
  · rfl
  · cases last with
    | none => rw [pending, hdrop]; rfl
    | some l =>
        have hsilent := h.silent l rfl
        rw [htake] at hsilent
        rw [pending, List.rdropWhile_eq_nil_iff.mpr hsilent]
        rfl

/-! ## One window -/

variable {window : Moment × Moment} {rest : List (Moment × Moment)} {last : Option Nat}
  {index : Nat}

theorem Quiet.next_silent (h : a.Quiet memory target last index)
    (hdrop : a.windows.drop index = window :: rest)
    (hsilent : a.silent memory target window = true) :
    a.Quiet memory target last (index + 1) ∧
      a.owed memory target last index = a.owed memory target last (index + 1) := by
  have htail : a.windows.drop (index + 1) = rest := by
    rw [← List.drop_drop, hdrop]
    rfl
  have hlogs : a.logs memory target window = [] := List.isEmpty_iff.mp hsilent
  refine ⟨⟨h.grouped, fun l hl => Nat.lt_succ_of_lt (h.before l hl),
    fun l hl other hother => ?_⟩, ?_⟩
  · have hlt := h.before l hl
    have hwindow : a.windows[index]? = some window := by
      rw [← List.head?_drop, hdrop]
      rfl
    rw [List.take_add_one, hwindow, List.drop_append_of_le_length, List.mem_append] at hother
    · rcases hother with hother | hother
      · exact h.silent l hl other hother
      · obtain rfl : other = window := by simpa using hother
        exact hsilent
    · have : index < a.windows.length := by
        have := congrArg List.length hdrop
        simp only [List.length_drop, List.length_cons] at this
        omega
      rw [List.length_take]
      omega
  · rw [owed, owed, hdrop, htail, List.flatMap_cons, hlogs]
    split
    · rfl
    · cases last with
      | none => rw [pending, pending, hdrop, htail, List.dropWhile_cons_of_pos hsilent]
      | some l => rfl

theorem Quiet.next_grouped (h : a.Quiet memory target last index)
    (hdrop : a.windows.drop index = window :: rest)
    (hgrouped : a.descriptor.isGrouped = true) :
    a.Quiet memory target last (index + 1) ∧ a.owed memory target last index =
      (a.logs memory target window).map (stamped window) ++
        a.owed memory target last (index + 1) := by
  obtain rfl := h.grouped hgrouped
  have htail : a.windows.drop (index + 1) = rest := by
    rw [← List.drop_drop, hdrop]
    rfl
  refine ⟨quiet_none _, ?_⟩
  rw [owed, owed, if_pos hgrouped, if_pos hgrouped, hdrop, htail, List.flatMap_cons]

/-- A window with rows shows, and the gap before it. -/
theorem Quiet.next_rows (h : a.Quiet memory target last index)
    (hdrop : a.windows.drop index = window :: rest)
    (hsilent : a.silent memory target window = false) (hgrouped : a.descriptor.isGrouped = false)
    (next : Nat) :
    a.Quiet memory target (some index) (index + 1) ∧ a.owed memory target last index =
      (((a.resume next last).gap index).map a.silentRow ++
        (a.logs memory target window).map (stamped window)) ++
          a.owed memory target (some index) (index + 1) := by
  have htail : a.windows.drop (index + 1) = rest := by
    rw [← List.drop_drop, hdrop]
    rfl
  have hgap : a.pending memory target last index =
      (a.resume next last).gap index ++ window :: rest := by
    cases last with
    | none =>
        rw [pending, hdrop, List.dropWhile_cons_of_neg (by simp [hsilent])]
        rfl
    | some l =>
        have hlt := h.before l rfl
        have hsplit : a.windows = a.windows.take index ++ window :: rest := by
          rw [← hdrop, List.take_append_drop]
        have hlength : l + 1 ≤ (a.windows.take index).length := by
          have := congrArg List.length hdrop
          simp only [List.length_drop, List.length_cons] at this
          rw [List.length_take]
          omega
        rw [pending]
        conv_lhs => rw [hsplit]
        exact List.drop_append_of_le_length hlength
  have hquiet : ∀ other ∈ (a.resume next last).gap index,
      a.silent memory target other = true := by
    cases last with
    | none => exact fun _ hother => nomatch hother
    | some l => exact h.silent l rfl
  refine ⟨⟨fun hgroup => ?_, fun l hl => ?_, fun l hl other hother => ?_⟩, ?_⟩
  · rw [hgrouped] at hgroup
    cases hgroup
  · cases hl
    exact Nat.lt_succ_self index
  · cases hl
    rw [List.drop_eq_nil_of_le (List.length_take_le _ _)] at hother
    cases hother
  · have hrows : ((a.resume next last).gap index).flatMap (a.rowsAt memory target) =
        ((a.resume next last).gap index).map a.silentRow := by
      rw [List.map_eq_flatMap, List.flatMap_def, List.flatMap_def]
      refine congrArg List.flatten (List.map_congr_left fun other hother => ?_)
      rw [rowsAt, if_pos (hquiet other hother)]
    rw [owed, owed, hgap, pending, htail, if_neg (by simp [hgrouped]), if_neg (by simp [hgrouped]),
      rdropWhile_append_cons hsilent, List.flatMap_append, List.flatMap_cons, hrows, rowsAt,
      if_neg (by simp [hsilent]), List.append_assoc]

/-! ## All windows -/

/-- The rows of window `index` without their time. -/
def logsAt (memory : MemoryStore) (a : Aggregator) (target : String) (index : Nat) :
    List Members :=
  match a.windows[index]? with
  | some window => a.logs memory target window
  | none => []

/-- The rows of the windows one by one are those that are owed. -/
theorem Quiet.spread (h : a.Quiet memory target last index) :
    a.spread (a.logsAt memory target) index last (a.windows.drop index) =
      a.owed memory target last index := by
  induction hn : a.windows.length - index generalizing index last with
  | zero =>
      have hend : a.windows.length ≤ index := Nat.le_of_sub_eq_zero hn
      rw [spread_end a _ index last hend, h.owed_end hend]
  | succ n ih =>
      have hlt : index < a.windows.length := by omega
      have hdrop := List.drop_eq_getElem_cons hlt
      have hlogs : a.logsAt memory target index = a.logs memory target a.windows[index] := by
        rw [logsAt, List.getElem?_eq_getElem hlt]
      rw [hdrop, Aggregator.spread, hlogs]
      split
      · rename_i hsilent
        obtain ⟨hquiet, howed⟩ := h.next_silent hdrop hsilent
        rw [howed, ih hquiet (by omega)]
      · rename_i hrows
        split
        · rename_i hgrouped
          obtain ⟨hquiet, howed⟩ := h.next_grouped hdrop hgrouped
          rw [howed, ih hquiet (by omega)]
        · rename_i hungrouped
          obtain ⟨hquiet, howed⟩ := h.next_rows hdrop (Bool.eq_false_iff.mpr hrows)
            (Bool.eq_false_iff.mpr hungrouped) a.next
          rw [howed, ih hquiet (by omega)]
          rfl

/-! ## Searches -/

variable {session : Session ScriptedStore}

/-- What a window yields comes with the descriptor of the first try. -/
def result (memory : MemoryStore) (a : Aggregator) (window : Moment × Moment) :
    Except ReadError (List Members × Descriptor) :=
  (a.outcome memory window).map (·, a.descriptor)

theorem Counting.fetchWindow (h : a.Counting memory target) (hsession : session.Answers memory)
    (hmem : window ∈ a.windows) :
    ∃ session' : Session ScriptedStore, session'.Answers memory ∧
      a.fetchWindow ScriptedStore.store (Windows.clip a.range window) a.descriptor session =
        (a.result memory window, session') := by
  obtain ⟨session', hsession', htry⟩ :=
    tryWindow_answer hsession a (Windows.clip a.range window) a.descriptor
  change _ = (a.outcome memory window, session') at htry
  refine ⟨session', hsession', ?_⟩
  rw [fetchWindow_of_known, htry, result]
  intro e field he hfield
  rw [htry] at he
  rcases h.outcome_eq hmem with ⟨e', he', hknown⟩ | hrows
  · cases he.symm.trans he'
    cases hknown.symm.trans hfield
  · cases he.symm.trans hrows

theorem Counting.feeds (h : a.Counting memory target) :
    Feeds ScriptedStore.store a a.descriptor (a.logsAt memory target)
      fun _ session => session.Answers memory where
  add := fun hsession counter n => hsession.add counter n
  next := fun hwindow hsession d hd => by
    obtain rfl : d = a.descriptor := hd.elim id id
    obtain ⟨session', hsession', hfetch⟩ := h.fetchWindow hsession (List.mem_of_getElem? hwindow)
    rw [hfetch]
    exact hsession'
  conforms := fun {index session window} hwindow hsession d hd answer hanswer => by
    obtain rfl : d = a.descriptor := hd.elim id id
    have hmem := List.mem_of_getElem? hwindow
    obtain ⟨session', -, hfetch⟩ := h.fetchWindow hsession hmem
    rw [hfetch, result] at hanswer
    rcases h.outcome_eq hmem with ⟨e, he, -⟩ | hrows
    · rw [he] at hanswer
      cases hanswer
    · rw [hrows] at hanswer
      cases hanswer
      refine ⟨?_, fun c hc => .inl ?_⟩
      · rw [logsAt, hwindow]
      · obtain rfl : c = a.descriptor := hc.elim id id
        exact Descriptor.without_self _ _

theorem Counting.replies (h : a.Counting memory target) (hall : a.Answered memory target) :
    Replies ScriptedStore.store a a.descriptor fun _ session => session.Answers memory :=
  fun {index session window} hwindow hsession d hd => by
    obtain rfl : d = a.descriptor := hd.elim id id
    have hmem := List.mem_of_getElem? hwindow
    obtain ⟨session', -, hfetch⟩ := h.fetchWindow hsession hmem
    rw [hfetch, result, hall window hmem]
    exact ⟨_, rfl⟩

/-! ## Draining -/

/-- A drained count has emitted what its windows yield, however many are searched at once, and it
gets there when all of them are answered. -/
theorem Counting.collect (h : a.Counting memory target) (hsession : session.Answers memory)
    {next : Nat} (hquiet : a.Quiet memory target last next) (fetches : Nat) :
    let stream := (Stream.collect (fun a session => a.fetch ScriptedStore.store session) fetches
      none (a.resume next last) session).1
    (stream.error = none → stream.batches.flatten = a.owed memory target last next) ∧
      (a.Answered memory target → a.windows.length - next < fetches → stream.error = none) := by
  obtain ⟨hrows, hend⟩ := h.feeds.collect next hsession (.inl rfl) last fetches
  refine ⟨fun herror => ?_, fun hall => hend (h.replies hall)⟩
  rw [← hquiet.spread]
  exact (hrows herror).trans
    (@spread_congr a (a.having a.descriptor 0 none) rfl rfl _ _ _ _)

end Aggregator
end Sluice
