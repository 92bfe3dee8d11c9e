import Sluice.Proofs.Clauses
import Sluice.Proofs.Sorting
import Sluice.Store.Scripted

/-!
What a store in memory answers to a query: the documents that meet all its clauses, in its order,
the part of them that it asks for, and the aggregations over all of them.
-/
namespace Sluice

/-- Whether a document meets a clause; one that refuses the clause does not. -/
def Condition.met (clause : Json) (document : Members) : Bool :=
  match holds document (ofJson clause) with
  | .ok b => b
  | .error _ => false

theorem Condition.Decides.holds_eq {clause : Json} (h : Decides clause) (document : Members) :
    holds document (ofJson clause) = .ok (met clause document) := by
  obtain ⟨b, hb⟩ := h document
  simp only [met, hb]

theorem Condition.allHold_ofItems {clauses : List Json} (h : ∀ c ∈ clauses, Decides c)
    (document : Members) :
    allHold document (ofItems clauses) = .ok (clauses.all (met · document)) := by
  induction clauses with
  | nil => rfl
  | cons c rest ih =>
      have hc := (h c List.mem_cons_self).holds_eq document
      have hrest := ih fun c hc => h c (List.mem_cons_of_mem _ hc)
      simp only [ofItems, allHold, hc, hrest, List.all_cons]
      cases met c document <;> rfl

/-- What conditions come to that are not refused before it is settled. -/
theorem Condition.allHold_eq_ok {clauses : List Json} {document : Members} {b : Bool}
    (h : allHold document (ofItems clauses) = .ok b) : b = clauses.all (met · document) := by
  induction clauses generalizing b with
  | nil =>
      cases h
      rfl
  | cons c rest ih =>
      rw [ofItems, allHold] at h
      obtain ⟨first, hfirst, h⟩ := bind_eq_ok.mp h
      have hmet : met c document = first := by simp only [met, hfirst]
      rw [List.all_cons, hmet]
      cases first with
      | false =>
          cases h
          rfl
      | true => exact ih h

namespace Query

/-! ## The body of a query -/

/-- The condition that a query puts on documents. -/
def condition (q : Query) : Json :=
  .object [("filtered", .object [("filter", Clause.all q.clauses)])]

theorem member?_from (q : Query) : q.toJson.member? "from" = some (.nat q.start) := by
  cases h : q.aggregations <;> simp [toJson, h, Json.member?, Members.get?]

theorem member?_size (q : Query) : q.toJson.member? "size" = some (.nat q.size) := by
  cases h : q.aggregations <;> simp [toJson, h, Json.member?, Members.get?]

theorem member?_query (q : Query) : q.toJson.member? "query" = some q.condition := by
  cases h : q.aggregations <;> simp [toJson, h, Json.member?, Members.get?, condition]

theorem member?_sort (q : Query) :
    q.toJson.member? "sort" = q.sort.map fun s => .object [(s.1, .object [
      ("order", .text s.2.name), ("unmapped_type", .text "date")])] := by
  cases h : q.aggregations <;> cases hs : q.sort <;>
    simp [toJson, h, hs, Json.member?, Members.get?]

theorem member?_aggregations (q : Query) :
    q.toJson.member? "aggregations" = q.aggregations.map Json.object := by
  cases h : q.aggregations <;> cases hs : q.sort <;>
    simp [toJson, h, hs, Json.member?, Members.get?]

theorem member?_aggs (q : Query) : q.toJson.member? "aggs" = none := by
  cases h : q.aggregations <;> cases hs : q.sort <;>
    simp [toJson, h, hs, Json.member?, Members.get?]

/-- Whether a document meets all clauses of a query. -/
def matched (q : Query) (document : Members) : Bool := q.clauses.all (Condition.met · document)

theorem holds_condition {q : Query} (h : ∀ c ∈ q.clauses, Condition.Decides c)
    (document : Members) :
    Condition.holds document (Condition.ofJson q.condition) = .ok (q.matched document) := by
  rw [condition, Condition.holds_filtered, Condition.holds_all, Condition.allHold_ofItems h]
  rfl

theorem holds_condition_eq_ok {q : Query} {document : Members} {b : Bool}
    (h : Condition.holds document (Condition.ofJson q.condition) = .ok b) :
    b = q.matched document := by
  rw [condition, Condition.holds_filtered, Condition.holds_all] at h
  exact Condition.allHold_eq_ok h

/-- Documents in the order that a query asks for. -/
def sorted (q : Query) (documents : List Members) : List Members :=
  match q.sort with
  | some (field, direction) => MemoryStore.sortBy field (direction = .desc) documents
  | none => documents

end Query

namespace MemoryStore

/-! ## Evaluation -/

theorem matching_eq_filter {condition : Condition} {p : Members → Bool}
    (h : ∀ document, condition.holds document = .ok (p document)) (documents : List Members) :
    matching condition documents = .ok (documents.filter p) := by
  induction documents with
  | nil => rfl
  | cons document rest ih =>
      simp only [matching, h, ih, List.filter_cons]
      rfl

theorem matching_eq_ok {condition : Condition} {p : Members → Bool}
    (h : ∀ document b, condition.holds document = .ok b → b = p document)
    {documents found : List Members} (hfound : matching condition documents = .ok found) :
    found = documents.filter p := by
  induction documents generalizing found with
  | nil =>
      cases hfound
      rfl
  | cons document rest ih =>
      rw [matching] at hfound
      obtain ⟨holds, hholds, hfound⟩ := bind_eq_ok.mp hfound
      obtain ⟨more, hmore, hfound⟩ := bind_eq_ok.mp hfound
      cases hfound
      rw [List.filter_cons, ← h document holds hholds, ih hmore]

theorem numberUnder_eq {key : String} {n : Nat} {body : Json} (default : Nat)
    (h : body.member? key = some (.nat n)) (hn : n < Word.unsignedLimit) :
    numberUnder key default body = n := by
  rw [numberUnder, h, Option.bind_some, Json.unsigned?_nat hn, Option.getD_some]

theorem readSort_toJson (field : String) (direction : Direction) :
    readSort (.object [(field, .object [
      ("order", .text direction.name), ("unmapped_type", .text "date")])]) =
        .ok (field, direction = .desc) := by
  cases direction <;> simp [readSort, Json.member?, Members.get?, Json.text?, Direction.name]

theorem evaluate_query {store : MemoryStore} {patterns names : List String} {q : Query}
    (hnames : store.resolve patterns = .ok names)
    (hclauses : ∀ c ∈ q.clauses, Condition.Decides c)
    (hwords : q.start + q.size < Word.unsignedLimit) :
    store.evaluate ⟨patterns, q.toJson⟩ =
      if store.maxResultWindow < q.start + q.size then
        .error (.windowTooLarge store.maxResultWindow (q.start + q.size))
      else
        let sorted := q.sorted ((store.documentsOf names).filter q.matched)
        (q.aggregations.mapM fun tree =>
          Aggregation.evaluateAll (Aggregation.ofMembers tree) sorted).map fun results =>
            (sorted, (sorted.drop q.start).take q.size, results) := by
  have hstart : q.start < Word.unsignedLimit := Nat.lt_of_le_of_lt (Nat.le_add_right _ _) hwords
  have hcount : q.size < Word.unsignedLimit := Nat.lt_of_le_of_lt (Nat.le_add_left _ _) hwords
  have hfrom := numberUnder_eq 0 q.member?_from hstart
  have hsize := numberUnder_eq defaultSize q.member?_size hcount
  have hasked : Word.wrapUnsigned ((q.start : Int) + (q.size : Int)) = q.start + q.size := by
    rw [← Int.natCast_add]
    exact Word.wrapUnsigned_of_fits hwords
  have haggs : ((q.toJson.member? "aggregations").or (q.toJson.member? "aggs")).bind
      Json.object? = q.aggregations := by
    rw [q.member?_aggregations, q.member?_aggs]
    cases q.aggregations <;> rfl
  simp only [evaluate, hnames, hfrom, hsize, hasked, haggs, q.member?_query, q.member?_sort,
    matching_eq_filter (Query.holds_condition hclauses)]
  simp only [ok_bind]
  split
  · rfl
  · generalize (store.documentsOf names).filter q.matched = documents
    unfold Query.sorted
    cases q.sort with
    | none => exact bind_pure_eq_map _ _
    | some s =>
        simp only [Option.map_some, readSort_toJson, ok_bind]
        exact bind_pure_eq_map _ _

/-- What a query finds that is not refused, whatever its clauses. -/
theorem evaluate_query_eq_ok {store : MemoryStore} {patterns names : List String} {q : Query}
    {found hits : List Members} {results : Option Members}
    (hnames : store.resolve patterns = .ok names)
    (h : store.evaluate ⟨patterns, q.toJson⟩ = .ok (found, hits, results)) :
    found = q.sorted ((store.documentsOf names).filter q.matched) ∧
      ∃ start size, hits = (found.drop start).take size := by
  simp only [evaluate, hnames, q.member?_query, q.member?_sort, ok_bind] at h
  split at h
  · cases h
  obtain ⟨matched, hmatched, h⟩ := bind_eq_ok.mp h
  have hfilter := matching_eq_ok (fun _ _ => Query.holds_condition_eq_ok) hmatched
  rw [← hfilter]
  unfold Query.sorted
  cases hsort : q.sort with
  | none =>
      simp only [hsort, Option.map_none] at h
      obtain ⟨sorted, hsorted, h⟩ := bind_eq_ok.mp h
      obtain ⟨results', -, h⟩ := bind_eq_ok.mp h
      cases hsorted
      cases h
      exact ⟨rfl, _, _, rfl⟩
  | some s =>
      simp only [hsort, Option.map_some, readSort_toJson, ok_bind] at h
      obtain ⟨sorted, hsorted, h⟩ := bind_eq_ok.mp h
      obtain ⟨results', -, h⟩ := bind_eq_ok.mp h
      cases hsorted
      cases h
      exact ⟨rfl, _, _, rfl⟩

end MemoryStore
end Sluice
