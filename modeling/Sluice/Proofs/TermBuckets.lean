import Sluice.Proofs.Groups
import Sluice.Proofs.Outcomes

/-!
The buckets of a terms aggregation part the documents that have its field by the JSON texts of their
values. The largest come first, the ones past the size are dropped, and what is dropped is counted.
-/
namespace Sluice

namespace Aggregation

open Document Grouping

variable {field : String} {size : Nat} {sub : List (String × Aggregation)}
  {documents : List Members}

/-- The bucket over some documents: its key, their number, and what the nested aggregations are over
them. -/
def IsBucket (sub : List (String × Aggregation)) (key : Json) (keyText : Option String)
    (documents : List Members) (bucket : Json) : Prop :=
  ∃ results, evaluateAll sub documents = .ok results ∧
    bucket = bucketJson key keyText documents.length results

theorem forall₂_isBucket {α : Type} (key : α → Json) (keyText : α → Option String)
    {groups : List (α × List Members)} {buckets : List Json}
    (h : groups.mapM (fun group => do
      return bucketJson (key group.1) (keyText group.1) group.2.length
        (← evaluateAll sub group.2)) = .ok buckets) :
    List.Forall₂ (fun group => IsBucket sub (key group.1) (keyText group.1) group.2) groups
      buckets := by
  refine (forall₂_of_mapM_eq_ok h).imp fun group bucket hbucket => ?_
  obtain ⟨results, hresults, hbucket⟩ := bind_eq_ok.mp hbucket
  cases hbucket
  exact ⟨results, hresults, rfl⟩

/-- Whether a group may stand before another: it is larger, or as large and not behind it in the
order of the texts. -/
def Leads (a b : Json × List Members) : Prop :=
  b.2.length < a.2.length ∨ a.2.length = b.2.length ∧ a.1.plainText ≤ b.1.plainText

theorem Leads.trans {a b c : Json × List Members} (hab : Leads a b) (hbc : Leads b c) :
    Leads a c := by
  rcases hab with hab | ⟨hab, habText⟩
  · rcases hbc with hbc | ⟨hbc, -⟩
    · exact .inl (Nat.lt_trans hbc hab)
    · exact .inl (hbc ▸ hab)
  · rcases hbc with hbc | ⟨hbc, hbcText⟩
    · exact .inl (hab ▸ hbc)
    · exact .inr ⟨hab.trans hbc, String.le_trans habText hbcText⟩

theorem Leads.total (a b : Json × List Members) : Leads a b ∨ Leads b a := by
  rcases Nat.lt_trichotomy a.2.length b.2.length with hlt | heq | hgt
  · exact .inr (.inl hlt)
  · rcases String.le_total a.1.plainText b.1.plainText with hle | hle
    · exact .inl (.inr ⟨heq, hle⟩)
    · exact .inr (.inr ⟨heq.symm, hle⟩)
  · exact .inl (.inl hgt)

theorem pairwise_sortGroups (groups : List (Json × List Members)) :
    (sortGroups groups).Pairwise Leads := by
  have hleads : ∀ a b : Json × List Members, (decide (b.2.length < a.2.length) ||
      (decide (a.2.length = b.2.length) && decide (a.1.plainText ≤ b.1.plainText))) = true ↔
        Leads a b := by
    intro a b
    simp only [Leads, Bool.or_eq_true, Bool.and_eq_true, decide_eq_true_eq]
  refine (List.pairwise_mergeSort (fun a b c hab hbc => ?_) (fun a b => ?_) groups).imp
    fun {a b} h => (hleads a b).mp h
  · exact (hleads a c).mpr (((hleads a b).mp hab).trans ((hleads b c).mp hbc))
  · rw [Bool.or_eq_true]
    exact (Leads.total a b).imp (hleads a b).mpr (hleads b a).mpr

/-- The groups that a terms aggregation keeps and those that it drops, and what it answers. -/
structure Terms (field : String) (size : Nat) (sub : List (String × Aggregation))
    (documents : List Members) (kept dropped : List (Json × List Members)) (result : Json) :
    Prop where
  groups : Groups field documents (kept ++ dropped)
  unique : ∀ document ∈ documents, ∀ value, lookup document field = some value →
    ∃! group, group ∈ kept ++ dropped ∧ group.1.render = value.render
  ordered : (kept ++ dropped).Pairwise Leads
  length_kept : kept.length = min size (kept ++ dropped).length
  largest : ∀ group ∈ kept, ∀ other ∈ dropped, other.2.length ≤ group.2.length
  total : (kept.map (·.2.length)).sum + (dropped.map (·.2.length)).sum =
    documents.countP fun document => (lookup document field).isSome
  result : ∃ buckets,
    List.Forall₂ (fun group => IsBucket sub group.1 none group.2) kept buckets ∧
      result = .object [("buckets", .list buckets), ("doc_count_error_upper_bound", .nat 0),
        ("sum_other_doc_count", .nat (dropped.map (·.2.length)).sum)]

variable {result body : Json}

theorem exists_terms_of_evaluate (h : evaluate (.terms field size sub) documents = .ok result) :
    ∃ kept dropped, Terms field size sub documents kept dropped result := by
  rw [evaluate] at h
  obtain ⟨buckets, hbuckets, h⟩ := bind_eq_ok.mp h
  cases h
  have hgroups := groups_sortGroups field documents
  have hordered := pairwise_sortGroups (groupByField field documents)
  have hsum := hgroups.sum_length
  rw [← List.take_append_drop size (sortGroups _)] at hgroups hordered hsum
  rw [List.map_append, List.sum_append] at hsum
  refine ⟨_, _, hgroups, fun document hdocument value => hgroups.existsUnique hdocument, hordered,
    ?_, fun group hgroup other hother => ?_, hsum, buckets,
    forall₂_isBucket id (fun _ => none) hbuckets, ?_⟩
  · rw [List.take_append_drop, List.length_take]
  · rcases (List.pairwise_append.mp hordered).2.2 group hgroup other hother with hlt | ⟨heq, -⟩
    · exact Nat.le_of_lt hlt
    · exact Nat.le_of_eq heq.symm
  · rw [List.length_flatMap]

/-- A terms aggregation that succeeds reads a field and a size, and parts the documents that have
the field. -/
theorem evaluate_readTerms_parts (h : evaluate (readTerms body sub) documents = .ok result) :
    ∃ field, (body.member? "field").bind Json.text? = some field ∧
      ∃ kept dropped, Terms field (((body.member? "size").bind Json.unsigned?).getD defaultSize) sub
        documents kept dropped result := by
  rw [readTerms, withField] at h
  cases hfield : (body.member? "field").bind Json.text? with
  | none =>
      rw [hfield, evaluate] at h
      cases h
  | some field =>
      rw [hfield] at h
      exact ⟨field, rfl, exists_terms_of_evaluate h⟩

/-- One as a whole number, as a binary64 number and as a text are three values. -/
example : (Json.nat 1).render = "1" ∧ (Json.text "1").render = "\"1\"" ∧
    (Binary64.ofInt? 1).map (fun one => (Json.number (.float one)).render) = some "1.0" := by
  decide +kernel

/-- Of three groups two are kept. The number and the text are told apart, although both read 0. -/
theorem evaluate_readTerms_parts_zeros :
    let body : Json := .object [("field", .text "k"), ("size", .nat 2)]
    let sub : List (String × Aggregation) := [("n", .metric .valueCount "k")]
    let values : List Json := [.text "x", .text "0", .nat 0, .null, .nat 0]
    let documents : List Members := [] :: values.map fun value => [("k", value)]
    let bucket (key : Json) (count : Nat) : Json := .object [("doc_count", .nat count),
      ("key", key), ("n", .object [("value", .nat count)])]
    let result : Json := .object [("buckets", .list [bucket (.nat 0) 2, bucket (.text "0") 1]),
      ("doc_count_error_upper_bound", .nat 0), ("sum_other_doc_count", .nat 1)]
    evaluate (readTerms body sub) documents = .ok result ∧
      ∃ kept dropped, Terms "k" 2 sub documents kept dropped result := by
  intro body sub values documents bucket result
  have hresult : evaluate (readTerms body sub) documents = .ok result := by cbv
  obtain ⟨field, hfield, hterms⟩ := evaluate_readTerms_parts hresult
  cases hfield
  exact ⟨hresult, hterms⟩

end Aggregation
end Sluice
