import Mathlib.Data.List.Sort
import Sluice.Store.Memory

/-!
Stable sorting by an integer rank. A list sorted by rank is known by its parts of equal rank, so all
ways of sorting that keep these parts as they were agree.
-/
namespace Sluice.Sorting

variable {α : Type} {rank : α → Int}

/-- The list in ascending order of rank, elements of one rank as they were. -/
def byRank (rank : α → Int) (l : List α) : List α := l.mergeSort fun a b => rank a ≤ rank b

theorem pairwise_byRank (rank : α → Int) (l : List α) :
    (byRank rank l).Pairwise fun a b => rank a ≤ rank b := by
  have := @List.pairwise_mergeSort _ (fun a b => decide (rank a ≤ rank b))
    (fun a b c hab hbc => by simp only [decide_eq_true_eq] at *; omega)
    (fun a b => by simp only [Bool.or_eq_true, decide_eq_true_eq]; omega) l
  exact this.imp fun h => of_decide_eq_true h

theorem perm_byRank (rank : α → Int) (l : List α) : (byRank rank l).Perm l :=
  List.mergeSort_perm _ _

/-- Sorting leaves elements that rank alike as they were. -/
theorem filter_mergeSort {le : α → α → Bool} (htrans : ∀ a b c, le a b → le b c → le a c)
    (htotal : ∀ a b, le a b || le b a) {p : α → Bool} (hties : ∀ a b, p a → p b → le a b)
    (l : List α) : (l.mergeSort le).filter p = l.filter p := by
  have htied : (l.filter p).Pairwise fun a b => le a b = true :=
    List.pairwise_of_forall_mem_list fun a ha b hb =>
      hties a b (List.mem_filter.mp ha).2 (List.mem_filter.mp hb).2
  have hsub : (l.filter p).Sublist (l.mergeSort le) :=
    List.sublist_mergeSort htrans htotal htied List.filter_sublist
  have hfilter := hsub.filter p
  rw [List.filter_filter] at hfilter
  simp only [Bool.and_self] at hfilter
  refine (hfilter.eq_of_length ?_).symm
  exact ((List.mergeSort_perm l le).filter p).length_eq.symm

theorem filter_rank_byRank (l : List α) (r : Int) :
    (byRank rank l).filter (rank · = r) = l.filter (rank · = r) :=
  filter_mergeSort (fun a b c hab hbc => by simp only [decide_eq_true_eq] at *; omega)
    (fun a b => by simp only [Bool.or_eq_true, decide_eq_true_eq]; omega)
    (fun a b ha hb => by simp only [decide_eq_true_eq] at *; omega) l

/-- Two sorted lists with the same elements of each rank, in the same order, are the same. -/
theorem eq_of_pairwise_of_filter_eq {l₁ l₂ : List α}
    (h₁ : l₁.Pairwise fun a b => rank a ≤ rank b) (h₂ : l₂.Pairwise fun a b => rank a ≤ rank b)
    (h : ∀ r, l₁.filter (rank · = r) = l₂.filter (rank · = r)) : l₁ = l₂ := by
  have mem_of_mem : ∀ {l l' : List α} {a : α},
      (∀ r, l.filter (rank · = r) = l'.filter (rank · = r)) → a ∈ l → a ∈ l' := by
    intro l l' a h ha
    have : a ∈ l.filter (rank · = rank a) := List.mem_filter.mpr ⟨ha, by simp⟩
    rw [h] at this
    exact (List.mem_filter.mp this).1
  induction l₁ generalizing l₂ with
  | nil =>
      cases l₂ with
      | nil => rfl
      | cons b l₂ => exact absurd (mem_of_mem (fun r => (h r).symm) (List.mem_cons_self)) (by simp)
  | cons a l₁ ih =>
      cases l₂ with
      | nil => exact absurd (mem_of_mem h List.mem_cons_self) (by simp)
      | cons b l₂ =>
          obtain ⟨ha, hl₁⟩ := List.pairwise_cons.mp h₁
          obtain ⟨hb, hl₂⟩ := List.pairwise_cons.mp h₂
          have hab : rank a ≤ rank b := by
            rcases List.mem_cons.mp (mem_of_mem (fun r => (h r).symm) List.mem_cons_self) with e | m
            · exact Int.le_of_eq (congrArg rank e.symm)
            · exact ha b m
          have hba : rank b ≤ rank a := by
            rcases List.mem_cons.mp (mem_of_mem h List.mem_cons_self) with e | m
            · exact Int.le_of_eq (congrArg rank e.symm)
            · exact hb a m
          have hrank : rank a = rank b := by omega
          have hhead := h (rank a)
          simp only [List.filter_cons, hrank, decide_true, ↓reduceIte, List.cons.injEq] at hhead
          obtain ⟨rfl, -⟩ := hhead
          congr 1
          refine ih hl₁ hl₂ fun r => ?_
          have := h r
          simp only [List.filter_cons] at this
          split at this
          · exact (List.cons.inj this).2
          · exact this

theorem byRank_eq_self {l : List α} (h : l.Pairwise fun a b => rank a ≤ rank b) :
    byRank rank l = l :=
  eq_of_pairwise_of_filter_eq (pairwise_byRank rank l) h (filter_rank_byRank l)

theorem byRank_filter (p : α → Bool) (l : List α) :
    byRank rank (l.filter p) = (byRank rank l).filter p := by
  refine eq_of_pairwise_of_filter_eq (pairwise_byRank rank _)
    ((pairwise_byRank rank l).filter p) fun r => ?_
  have swap : ∀ l : List α, (l.filter p).filter (rank · = r) = (l.filter (rank · = r)).filter p := by
    intro l
    simp only [List.filter_filter, Bool.and_comm]
  rw [filter_rank_byRank, swap, swap, filter_rank_byRank]

theorem byRank_map {β : Type} (f : β → α) (l : List β) :
    byRank rank (l.map f) = (byRank (rank ∘ f) l).map f := by
  have := @List.map_mergeSort β α (fun a b => rank (f a) ≤ rank (f b)) (fun a b => rank a ≤ rank b)
    f l fun _ _ _ _ => rfl
  exact this.symm

theorem byRank_congr {rank' : α → Int} {l : List α} (h : ∀ a ∈ l, rank a = rank' a) :
    byRank rank l = byRank rank' l := by
  have hmem : ∀ {a}, a ∈ byRank rank' l → a ∈ l := (perm_byRank rank' l).mem_iff.mp
  refine eq_of_pairwise_of_filter_eq (pairwise_byRank rank l) ?_ fun r => ?_
  · refine (pairwise_byRank rank' l).imp_of_mem fun {a b} ha hb hle => ?_
    rw [h a (hmem ha), h b (hmem hb)]
    exact hle
  · have hsame : ∀ {l' : List α}, (∀ a ∈ l', a ∈ l) →
        l'.filter (rank · = r) = l'.filter (rank' · = r) := fun hsub =>
      List.filter_congr fun a ha => by rw [h a (hsub a ha)]
    rw [filter_rank_byRank, hsame fun _ ha => ha, hsame fun _ ha => hmem ha, filter_rank_byRank]

/-! ## Turning lists round -/

/-- Sorting the other way round leaves elements of one rank as they were, so that turned round they
come backwards. -/
theorem reverse_byRank_neg (l : List α) :
    (byRank (fun a => -rank a) l).reverse = byRank rank (byRank rank l).reverse := by
  refine eq_of_pairwise_of_filter_eq ?_ (pairwise_byRank rank _) fun r => ?_
  · exact List.pairwise_reverse.mpr ((pairwise_byRank _ l).imp fun hle => by omega)
  · have hneg : (byRank (fun a => -rank a) l).filter (rank · = r) = l.filter (rank · = r) := by
      have hrank : ∀ a : α, decide (rank a = r) = decide (-rank a = -r) := fun a =>
        decide_eq_decide.mpr (by omega)
      simp only [hrank]
      exact filter_rank_byRank l (-r)
    rw [filter_rank_byRank, List.filter_reverse, List.filter_reverse, filter_rank_byRank, hneg]

theorem map_rank_byRank_reverse {l : List α} (h : l.Pairwise fun a b => rank a ≤ rank b) :
    (byRank rank l.reverse).map rank = l.map rank := by
  have hperm : ((byRank rank l.reverse).map rank).Perm (l.map rank) :=
    ((perm_byRank rank l.reverse).trans (List.reverse_perm l)).map rank
  have hsorted : ((byRank rank l.reverse).map rank).Pairwise (· ≤ ·) :=
    List.pairwise_map.mpr (pairwise_byRank rank _)
  have hticks : (l.map rank).Pairwise (· ≤ ·) := List.pairwise_map.mpr h
  exact hperm.eq_of_pairwise' hsorted hticks

/-- Where no two elements have the same rank, nothing comes backwards. -/
theorem byRank_reverse_of_apart {l : List α} (h : l.Pairwise fun a b => rank a < rank b) :
    byRank rank l.reverse = l := by
  refine eq_of_pairwise_of_filter_eq (pairwise_byRank rank _) (h.imp Int.le_of_lt) fun r => ?_
  rw [filter_rank_byRank, List.filter_reverse]
  have hties := h.filter (rank · = r)
  have hrank : ∀ a ∈ l.filter (rank · = r), rank a = r := fun a ha =>
    of_decide_eq_true (List.mem_filter.mp ha).2
  match hfilter : l.filter (rank · = r) with
  | [] => rfl
  | [a] => rfl
  | a :: b :: rest =>
      rw [hfilter] at hties hrank
      have := (List.pairwise_cons.mp hties).1 b List.mem_cons_self
      have := hrank a List.mem_cons_self
      have := hrank b (List.mem_cons_of_mem a List.mem_cons_self)
      omega

/-! ## Cutting sorted lists -/

theorem eq_filter_lt_append {l : List α} (h : l.Pairwise fun a b => rank a ≤ rank b) (r : Int) :
    l = l.filter (rank · < r) ++ l.filter (r ≤ rank ·) := by
  induction l with
  | nil => rfl
  | cons a l ih =>
      obtain ⟨ha, hl⟩ := List.pairwise_cons.mp h
      by_cases hr : rank a < r
      · have hle : ¬r ≤ rank a := by omega
        simp only [List.filter_cons, hr, hle, decide_true, decide_false, ↓reduceIte,
          Bool.false_eq_true, List.cons_append]
        rw [← ih hl]
      · have hlow : (a :: l).filter (rank · < r) = [] :=
          List.filter_eq_nil_iff.mpr fun b hb => by
            rcases List.mem_cons.mp hb with rfl | hb
            · simpa using hr
            · have := ha b hb
              simp only [decide_eq_true_eq]
              omega
        have hhigh : (a :: l).filter (r ≤ rank ·) = a :: l :=
          List.filter_eq_self.mpr fun b hb => by
            rcases List.mem_cons.mp hb with rfl | hb
            · simpa using hr
            · have := ha b hb
              simp only [decide_eq_true_eq]
              omega
        rw [hlow, hhigh, List.nil_append]

/-- What is left of the first `n` elements without those that rank as the last of them. -/
theorem filter_ne_take {l : List α} (h : l.Pairwise fun a b => rank a ≤ rank b) {n : Nat} {last : α}
    (hlast : (l.take n).getLast? = some last) :
    (l.take n).filter (rank · ≠ rank last) = l.filter (rank · < rank last) := by
  have hsplit : (l.take n ++ l.drop n).Pairwise fun a b => rank a ≤ rank b := by
    rwa [List.take_append_drop]
  obtain ⟨htake, -, hcross⟩ := List.pairwise_append.mp hsplit
  obtain ⟨front, hfront⟩ := List.getLast?_eq_some_iff.mp hlast
  have hbelow : ∀ a ∈ l.take n, rank a ≤ rank last := by
    intro a ha
    rw [hfront] at ha htake
    rcases List.mem_append.mp ha with ha | ha
    · exact (List.pairwise_append.mp htake).2.2 a ha last List.mem_cons_self
    · exact Int.le_of_eq (congrArg rank (List.mem_singleton.mp ha))
  have hdrop : (l.drop n).filter (rank · < rank last) = [] :=
    List.filter_eq_nil_iff.mpr fun b hb => by
      have := hcross last (List.mem_of_getLast? hlast) b hb
      simp only [decide_eq_true_eq]
      omega
  have hl : l.filter (rank · < rank last) = (l.take n).filter (rank · < rank last) := by
    calc l.filter (rank · < rank last)
        = (l.take n ++ l.drop n).filter (rank · < rank last) := by rw [List.take_append_drop]
      _ = (l.take n).filter (rank · < rank last) := by
          rw [List.filter_append, hdrop, List.append_nil]
  rw [hl]
  refine List.filter_congr fun a ha => ?_
  have := hbelow a ha
  rw [decide_eq_decide]
  omega

/-- If the first of `n` elements ranks as the last of them, they all do. -/
theorem rank_eq_of_head_of_getLast {l : List α} (h : l.Pairwise fun a b => rank a ≤ rank b)
    {first last : α} (hfirst : l.head? = some first) (hlast : l.getLast? = some last)
    (hrank : rank first = rank last) : ∀ a ∈ l, rank a = rank first := by
  intro a ha
  obtain ⟨front, hfront⟩ := List.getLast?_eq_some_iff.mp hlast
  obtain ⟨rest, hrest⟩ := List.head?_eq_some_iff.mp hfirst
  have hlow : rank first ≤ rank a := by
    rw [hrest] at ha h
    rcases List.mem_cons.mp ha with rfl | ha
    · exact Int.le_refl _
    · exact (List.pairwise_cons.mp h).1 a ha
  have hhigh : rank a ≤ rank last := by
    rw [hfront] at ha h
    rcases List.mem_append.mp ha with ha | ha
    · exact (List.pairwise_append.mp h).2.2 a ha last List.mem_cons_self
    · exact Int.le_of_eq (congrArg rank (List.mem_singleton.mp ha))
  omega

/-! ## Insertion -/

open MemoryStore

variable {descending : Bool} {rank : Option Json × Members → Int}

/-- Where documents go before each other by their rank. -/
def Ranked (descending : Bool) (rank : Option Json × Members → Int)
    (entries : List (Option Json × Members)) : Prop :=
  ∀ x ∈ entries, ∀ y ∈ entries, goesBefore descending x.1 y.1 = decide (rank x < rank y)

theorem mem_insertSorted {x z : Option Json × Members} {sorted : List (Option Json × Members)} :
    z ∈ insertSorted descending x sorted ↔ z = x ∨ z ∈ sorted := by
  induction sorted with
  | nil => simp [insertSorted]
  | cons y rest ih =>
      simp only [insertSorted]
      split
      · simp only [List.mem_cons, ih]
        exact or_left_comm
      · simp only [List.mem_cons]

/-- The place of a document among sorted ones, held last first: behind those of its own rank. -/
theorem insertSorted_spec {x : Option Json × Members} {sorted : List (Option Json × Members)}
    (hx : ∀ y ∈ sorted, goesBefore descending x.1 y.1 = decide (rank x < rank y))
    (hs : sorted.Pairwise fun a b => rank b ≤ rank a) :
    (insertSorted descending x sorted).Pairwise (fun a b => rank b ≤ rank a) ∧
      ∀ r, (insertSorted descending x sorted).filter (rank · = r) =
        [x].filter (rank · = r) ++ sorted.filter (rank · = r) := by
  induction sorted with
  | nil => simp [insertSorted]
  | cons y rest ih =>
      obtain ⟨hy, hrest⟩ := List.pairwise_cons.mp hs
      have hxy := hx y List.mem_cons_self
      obtain ⟨ihp, ihf⟩ := ih (fun z hz => hx z (List.mem_cons_of_mem _ hz)) hrest
      simp only [insertSorted, hxy]
      split
      · rename_i hlt
        have hlt := of_decide_eq_true hlt
        refine ⟨List.pairwise_cons.mpr ⟨fun b hb => ?_, ihp⟩, fun r => ?_⟩
        · rcases mem_insertSorted.mp hb with rfl | hb
          · omega
          · exact hy b hb
        · simp only [List.filter_cons, ihf, List.filter_nil]
          by_cases hr : rank y = r
          · have : rank x ≠ r := by omega
            simp [hr, this]
          · simp [hr]
      · rename_i hle
        have hle := of_decide_eq_false hle
        refine ⟨List.pairwise_cons.mpr ⟨fun b hb => ?_, hs⟩, fun r => ?_⟩
        · rcases List.mem_cons.mp hb with rfl | hb
          · omega
          · have := hy b hb
            omega
        · rw [← List.filter_append, List.singleton_append]

theorem foldl_insertSorted_spec {entries sorted : List (Option Json × Members)}
    (h : Ranked descending rank (entries ++ sorted))
    (hs : sorted.Pairwise fun a b => rank b ≤ rank a) :
    (entries.foldl (fun sorted x => insertSorted descending x sorted) sorted).Pairwise
        (fun a b => rank b ≤ rank a) ∧
      ∀ r, (entries.foldl (fun sorted x => insertSorted descending x sorted) sorted).filter
          (rank · = r) =
        (entries.filter (rank · = r)).reverse ++ sorted.filter (rank · = r) := by
  induction entries generalizing sorted with
  | nil => exact ⟨hs, fun r => rfl⟩
  | cons x entries ih =>
      have hx : ∀ y ∈ sorted, goesBefore descending x.1 y.1 = decide (rank x < rank y) :=
        fun y hy => h x (by simp) y (by simp [hy])
      obtain ⟨hp, hf⟩ := insertSorted_spec hx hs
      have hranked : Ranked descending rank (entries ++ insertSorted descending x sorted) := by
        have : ∀ z ∈ entries ++ insertSorted descending x sorted, z ∈ x :: entries ++ sorted := by
          intro z hz
          simp only [List.mem_append, mem_insertSorted, List.mem_cons] at hz ⊢
          rcases hz with hz | rfl | hz
          · exact .inl (.inr hz)
          · exact .inl (.inl rfl)
          · exact .inr hz
        exact fun z hz w hw => h z (this z hz) w (this w hw)
      obtain ⟨ihp, ihf⟩ := ih hranked hp
      refine ⟨ihp, fun r => ?_⟩
      rw [List.foldl_cons, ihf, hf, ← List.append_assoc]
      congr 1
      simp only [List.filter_cons, List.filter_nil]
      split
      · simp
      · simp

/-- The store's sort, where a rank tells which document goes first. -/
theorem sortBy_eq_byRank {field : String} {rank : Members → Int} {documents : List Members}
    (h : ∀ a ∈ documents, ∀ b ∈ documents,
      goesBefore descending (Document.lookup a field) (Document.lookup b field) =
        decide (rank a < rank b)) :
    sortBy field descending documents = byRank rank documents := by
  let entry (document : Members) := (Document.lookup document field, document)
  have hranked : Ranked descending (rank ∘ Prod.snd) (documents.map entry ++ []) := by
    rw [List.append_nil]
    intro x hx y hy
    obtain ⟨a, ha, rfl⟩ := List.mem_map.mp hx
    obtain ⟨b, hb, rfl⟩ := List.mem_map.mp hy
    exact h a ha b hb
  obtain ⟨hp, hf⟩ := foldl_insertSorted_spec hranked .nil
  have hsorted : ((documents.map entry).foldl
      (fun sorted x => insertSorted descending x sorted) []).reverse =
        byRank (rank ∘ Prod.snd) (documents.map entry) := by
    refine eq_of_pairwise_of_filter_eq (List.pairwise_reverse.mpr hp) (pairwise_byRank _ _)
      fun r => ?_
    rw [List.filter_reverse, hf, filter_rank_byRank]
    simp
  have hdocuments : ∀ l : List Members, (l.map entry).map Prod.snd = l := by
    intro l
    rw [List.map_map]
    exact List.map_id l
  rw [sortBy, hsorted, byRank_map, hdocuments]
  rfl

theorem exists_rank_lt (rank : α → Int) (l : List α) : ∃ top, ∀ a ∈ l, rank a < top := by
  induction l with
  | nil => exact ⟨0, fun a ha => absurd ha List.not_mem_nil⟩
  | cons x l ih =>
      obtain ⟨top, htop⟩ := ih
      refine ⟨max top (rank x + 1), fun a ha => ?_⟩
      rcases List.mem_cons.mp ha with rfl | ha
      · omega
      · have := htop a ha
        omega

/-- The store's sort, where a rank tells which document goes first among those that have the field:
the others come last, as they were. -/
theorem sortBy_eq_append {field : String} {rank : Members → Int} {documents : List Members}
    (h : ∀ a ∈ documents, ∀ b ∈ documents, ∀ x y, Document.lookup a field = some x →
      Document.lookup b field = some y →
      goesBefore descending (some x) (some y) = decide (rank a < rank b)) :
    sortBy field descending documents =
      byRank rank (documents.filter fun document => (Document.lookup document field).isSome) ++
        documents.filter fun document => (Document.lookup document field).isNone := by
  obtain ⟨top, htop⟩ := exists_rank_lt rank documents
  let rank' (document : Members) : Int :=
    if (Document.lookup document field).isSome then rank document else top
  have hsome : ∀ document ∈ documents,
      decide (rank' document < top) = (Document.lookup document field).isSome := by
    intro document hmem
    have hbelow := htop document hmem
    cases hvalue : Document.lookup document field <;> simp [rank', hvalue, hbelow]
  have hnone : ∀ document ∈ documents,
      decide (top ≤ rank' document) = (Document.lookup document field).isNone := by
    intro document hmem
    rw [← Option.not_isSome, ← hsome document hmem, ← decide_not]
    exact decide_eq_decide.mpr Int.not_lt.symm
  have hsorted : sortBy field descending documents = byRank rank' documents := by
    refine sortBy_eq_byRank fun a ha b hb => ?_
    have hatop := htop a ha
    have hbtop := htop b hb
    cases hx : Document.lookup a field with
    | none =>
        have hle : ¬ top < rank' b := by
          simp only [rank']
          split <;> omega
        simpa [goesBefore, rank', hx] using hle
    | some x =>
        cases hy : Document.lookup b field with
        | none => simp [goesBefore, rank', hx, hy, hatop]
        | some y => simp [rank', hx, hy, h a ha b hb x y hx hy]
  rw [hsorted, eq_filter_lt_append (pairwise_byRank rank' documents) top, ← byRank_filter,
    ← byRank_filter, List.filter_congr hsome, List.filter_congr hnone]
  congr 1
  · refine byRank_congr fun a ha => ?_
    exact if_pos (List.mem_filter.mp ha).2
  · refine byRank_eq_self (List.pairwise_of_forall_mem_list fun a ha b hb => ?_)
    have ha := Option.isNone_iff_eq_none.mp (List.mem_filter.mp ha).2
    have hb := Option.isNone_iff_eq_none.mp (List.mem_filter.mp hb).2
    simp [rank', ha, hb]

end Sluice.Sorting
