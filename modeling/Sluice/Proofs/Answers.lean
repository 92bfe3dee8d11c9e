import Sluice.Proofs.Rejections
import Sluice.Proofs.Search

/-!
What a read gets from a store in memory. An index that is not there has no documents; a page past
the store's window is the only search for documents that ends a read.
-/
namespace Sluice

/-- The session of a store that answers from memory. -/
structure Session.Answers (memory : MemoryStore) (session : Session ScriptedStore) : Prop where
  memory : session.store.memory = memory
  script : session.store.script = []

theorem Session.Answers.add {memory : MemoryStore} {session : Session ScriptedStore}
    (h : session.Answers memory) (counter : Counter) (n : Nat) :
    (session.add counter n).Answers memory :=
  ⟨h.memory, h.script⟩

/-- The documents that a query selects, and the part of them that it asks for. -/
def Query.answer (q : Query) (documents : List Members) : Response :=
  let found := q.sorted (documents.filter q.matched)
  ⟨found.length, (found.drop q.start).take q.size, []⟩

/-- A query for no documents, which counts those that meet its clauses. -/
def Query.counting (clauses : List Json) : Query := ⟨0, 0, none, clauses, none⟩

/-- What a read makes of an error, unless it fails: the answer of a store that has nothing. -/
theorem Store.absorb_eq_ok {e : StoreError} {response : Response}
    (h : absorb e = .ok response) : response = Response.empty := by
  unfold absorb at h
  split at h <;> cases h <;> rfl

namespace MemoryStore

/-- The documents behind index patterns, none if one of them names no index. -/
def searched (memory : MemoryStore) (patterns : List String) : List Members :=
  match memory.resolve patterns with
  | .ok names => memory.documentsOf names
  | .error _ => []

/-- What a read gets for a search. -/
def answer (memory : MemoryStore) (request : SearchRequest) : Except ReadError Response :=
  match memory.search request with
  | .ok response => .ok response
  | .error e => Store.absorb e

variable {memory : MemoryStore} {session : Session ScriptedStore} {patterns : List String}

theorem searchOrEmpty_answer (h : session.Answers memory) (operation : Operation)
    (request : SearchRequest) :
    ∃ session' : Session ScriptedStore, session'.Answers memory ∧
      ScriptedStore.store.searchOrEmpty operation request session =
        (memory.answer request, session') := by
  obtain ⟨⟨memory', script, asked⟩, counters⟩ := session
  obtain ⟨rfl, rfl⟩ : memory' = memory ∧ script = [] := ⟨h.memory, h.script⟩
  have hsearch : ScriptedStore.store.search ⟨memory', [], asked⟩ request =
      (memory'.search request, ⟨memory', [], request :: asked⟩) := rfl
  simp only [Store.searchOrEmpty, hsearch, answer]
  cases memory'.search request with
  | ok response => exact ⟨_, ⟨rfl, rfl⟩, rfl⟩
  | error e => exact ⟨_, ⟨rfl, rfl⟩, rfl⟩

theorem searched_of_resolve {names : List String} (h : memory.resolve patterns = .ok names) :
    memory.searched patterns = memory.documentsOf names := by
  rw [searched, h]

theorem noSuchIndex_of_resolve {r : Rejection} (h : memory.resolve patterns = .error r) :
    ∃ name, r = .noSuchIndex name := by
  simp only [resolve] at h
  generalize (patterns.flatMap fun p => (p.toList.splitOn ',').map String.ofList) = names at h
  cases hm : names.mapM memory.resolvePattern with
  | ok found =>
      rw [hm] at h
      cases h
  | error r' =>
      rw [hm] at h
      cases h
      obtain ⟨name, -, hname⟩ := exists_of_mapM_error hm
      simp only [resolvePattern] at hname
      split at hname
      · cases hname
      · split at hname
        · cases hname
        · cases hname
          exact ⟨name, rfl⟩

theorem answer_of_resolve_error {r : Rejection} (h : memory.resolve patterns = .error r)
    (body : Json) : memory.answer ⟨patterns, body⟩ = .ok Response.empty := by
  obtain ⟨name, rfl⟩ := noSuchIndex_of_resolve h
  have hevaluate : memory.evaluate ⟨patterns, body⟩ = .error (.noSuchIndex name) := by
    simp only [evaluate, h]
    rfl
  rw [answer, search, hevaluate]
  exact Rejection.absorb_noSuchIndex name _

/-- A search for documents is answered with those it selects, or it asks for more than the store's
window and fails. -/
theorem answer_query {q : Query} (haggregations : q.aggregations = none)
    (hclauses : ∀ c ∈ q.clauses, Condition.Decides c)
    (hwords : q.start + q.size < Word.unsignedLimit)
    (hlimit : memory.maxResultWindow < Word.unsignedLimit) :
    memory.answer ⟨patterns, q.toJson⟩ = .ok (q.answer (memory.searched patterns)) ∨
      memory.maxResultWindow < q.start + q.size ∧
        ∃ e, memory.answer ⟨patterns, q.toJson⟩ = .error e := by
  cases hresolve : memory.resolve patterns with
  | error r =>
      left
      have hsorted : q.sorted [] = [] := by
        unfold Query.sorted
        cases q.sort <;> rfl
      rw [answer_of_resolve_error hresolve, searched, hresolve, Query.answer, List.filter_nil,
        hsorted, List.drop_nil, List.take_nil]
      rfl
  | ok names =>
      have hevaluate := evaluate_query hresolve hclauses hwords
      rw [haggregations] at hevaluate
      split at hevaluate
      · rename_i hwindow
        refine .inr ⟨hwindow, .windowOverflow memory.maxResultWindow, ?_⟩
        rw [answer, search, hevaluate]
        exact Rejection.absorb_windowTooLarge hlimit _ _
      · left
        rw [answer, search, hevaluate, searched_of_resolve hresolve]
        rfl

/-- A search for documents, whatever its clauses, is answered with nothing or with some of what it
selects, and then with how many that are. -/
theorem answer_query_eq_ok {q : Query} {response : Response}
    (h : memory.answer ⟨patterns, q.toJson⟩ = .ok response) :
    response = Response.empty ∨
      response.total = (q.sorted ((memory.searched patterns).filter q.matched)).length ∧
        ∃ start size, response.hits =
          ((q.sorted ((memory.searched patterns).filter q.matched)).drop start).take size := by
  cases hresolve : memory.resolve patterns with
  | error r =>
      rw [answer_of_resolve_error hresolve] at h
      cases h
      exact .inl rfl
  | ok names =>
      rw [searched_of_resolve hresolve]
      rw [answer, search] at h
      cases hevaluate : memory.evaluate ⟨patterns, q.toJson⟩ with
      | error r =>
          simp only [hevaluate] at h
          exact .inl (Store.absorb_eq_ok h)
      | ok outcome =>
          obtain ⟨found, hits, results⟩ := outcome
          obtain ⟨rfl, hhits⟩ := evaluate_query_eq_ok hresolve hevaluate
          simp only [hevaluate] at h
          split at h
          · rename_i hanswer
            split at hanswer
            · cases hanswer
              cases h
              exact .inr ⟨rfl, hhits⟩
            · cases hanswer
          · exact .inl (Store.absorb_eq_ok h)

theorem evaluate_counting {names : List String} {clauses : List Json}
    (hresolve : memory.resolve patterns = .ok names)
    (hclauses : ∀ c ∈ clauses, Condition.Decides c) (tree : Members) :
    let found := (memory.documentsOf names).filter (Query.counting clauses).matched
    memory.evaluate ⟨patterns, ((Query.counting clauses).aggregate tree).toJson⟩ =
      if tree.isEmpty then .ok (found, [], none)
      else (Aggregation.evaluateAll (Aggregation.ofMembers tree) found).map fun results =>
        (found, [], some results) := by
  intro found
  have hwords : 0 + 0 < Word.unsignedLimit := by decide
  have hnarrow : ¬ memory.maxResultWindow < 0 + 0 := Nat.not_lt_zero _
  cases tree with
  | nil =>
      exact (@evaluate_query memory patterns names (Query.counting clauses) hresolve hclauses
        hwords).trans (if_neg hnarrow)
  | cons node tree =>
      refine (@evaluate_query memory patterns names ((Query.counting clauses).aggregate
        (node :: tree)) hresolve hclauses hwords).trans ((if_neg hnarrow).trans ?_)
      change Except.map _ (Aggregation.evaluateAll (Aggregation.ofMembers (node :: tree)) found >>=
        fun results => pure (some results)) = _
      rw [bind_pure_eq_map, if_neg (by simp)]
      cases Aggregation.evaluateAll (Aggregation.ofMembers (node :: tree)) found <;> rfl

/-- A search for aggregations alone is answered with those of the documents it selects, or with
what a read makes of their rejection. -/
theorem answer_counting {clauses : List Json} (hclauses : ∀ c ∈ clauses, Condition.Decides c)
    (tree : Members) :
    let found := (memory.searched patterns).filter (Query.counting clauses).matched
    let answer := memory.answer ⟨patterns, ((Query.counting clauses).aggregate tree).toJson⟩
    let tried := Aggregation.evaluateAll (Aggregation.ofMembers tree) found
    (found = [] ∧ answer = .ok Response.empty) ∨
      (∃ r, tried = .error r ∧ answer = Store.absorb (.refused r.status r.payload.render)) ∨
      ∃ results, tried = .ok results ∧ answer = match Result.named? (.object results) with
        | some aggregations => .ok ⟨found.length, [], aggregations⟩
        | none => .error (.store (.undecodable .shape)) := by
  intro found answer tried
  cases hresolve : memory.resolve patterns with
  | error r =>
      left
      have hsearched : memory.searched patterns = [] := by rw [searched, hresolve]
      exact ⟨by simp only [found, hsearched, List.filter_nil], answer_of_resolve_error hresolve _⟩
  | ok names =>
      right
      have hfound : found = (memory.documentsOf names).filter (Query.counting clauses).matched := by
        simp only [found, searched_of_resolve hresolve]
      have hevaluate := evaluate_counting hresolve hclauses tree
      dsimp only at hevaluate
      rw [← hfound] at hevaluate
      cases tree with
      | nil =>
          refine .inr ⟨[], rfl, ?_⟩
          rw [List.isEmpty_nil, if_pos rfl] at hevaluate
          simp only [answer, MemoryStore.answer, search, hevaluate]
          rfl
      | cons node tree =>
          rw [if_neg (by simp)] at hevaluate
          cases htried : Aggregation.evaluateAll (Aggregation.ofMembers (node :: tree)) found with
          | error r =>
              rw [htried] at hevaluate
              refine .inl ⟨r, htried, ?_⟩
              simp only [answer, MemoryStore.answer, search, hevaluate]
              rfl
          | ok results =>
              rw [htried] at hevaluate
              refine .inr ⟨results, htried, ?_⟩
              simp only [answer, MemoryStore.answer, search, hevaluate, Except.map, Option.map_some,
                Option.elim_some]
              cases Result.named? (.object results) <;> rfl

end MemoryStore
end Sluice
