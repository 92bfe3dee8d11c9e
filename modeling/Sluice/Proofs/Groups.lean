import Mathlib
import Sluice.Store.Aggregation

/-!
Documents by the values of their group fields. Values are told apart by their JSON text; nesting the
groups of one field in those of another lists every tuple of values once.
-/
namespace Sluice

namespace Document

/-- The JSON text of a field's value, if it has one. -/
def textOf (field : String) (document : Members) : Option String :=
  (lookup document field).map Json.render

/-- The texts of a document's values of group fields. -/
def texts (grouping : List String) (document : Members) : List (Option String) :=
  grouping.map (textOf · document)

end Document

/-- The texts of a tuple of values. -/
def Json.textsOf (values : List Json) : List (Option String) := values.map fun v => some v.render

namespace Grouping

open Document Aggregation

theorem nodup_eraseDups (texts : List String) : texts.eraseDups.Nodup := by
  generalize hlength : texts.length = length
  induction length using Nat.strongRecOn generalizing texts with
  | _ length ih =>
      cases texts with
      | nil => exact List.nodup_nil
      | cons text texts =>
          rw [List.eraseDups_cons, List.nodup_cons]
          refine ⟨?_, ih _ ?_ _ rfl⟩
          · rw [List.mem_eraseDups]
            simp
          · rw [← hlength, List.length_cons]
            exact Nat.lt_succ_of_le (List.length_filter_le _ _)

/-- Counting by keys that are all different and leave nothing out counts everything once. -/
theorem sum_countP_eq_length {α κ : Type} [DecidableEq κ] {keys : List κ} (hnodup : keys.Nodup)
    (f : α → κ) {l : List α} (h : ∀ a ∈ l, f a ∈ keys) :
    (keys.map fun key => l.countP (f · = key)).sum = l.length := by
  have hcount : ∀ key, l.countP (f · = key) = (l.map f).count key := by
    intro key
    rw [List.count, List.countP_map]
    exact List.countP_congr fun a _ => by simp
  have hmem : ∀ key ∈ (l.map f : Multiset κ), key ∈ keys.toFinset := by
    intro key hkey
    obtain ⟨a, ha, rfl⟩ := List.mem_map.mp (Multiset.mem_coe.mp hkey)
    exact List.mem_toFinset.mpr (h a ha)
  calc (keys.map fun key => l.countP (f · = key)).sum
      = (keys.map fun key => (l.map f).count key).sum := by simp only [hcount]
    _ = ∑ key ∈ keys.toFinset, (l.map f).count key := (List.sum_toFinset _ hnodup).symm
    _ = (l.map f).length := by
        simpa only [Multiset.coe_count, Multiset.coe_card] using Multiset.sum_count_eq_card hmem
    _ = l.length := List.length_map f

/-- Counting by keys that not all have counts those that have one. -/
theorem sum_countP_eq_countP_isSome {α κ : Type} [DecidableEq κ] {keys : List κ}
    (hnodup : keys.Nodup) (f : α → Option κ) {l : List α}
    (h : ∀ a ∈ l, ∀ key, f a = some key → key ∈ keys) :
    (keys.map fun key => l.countP (f · = some key)).sum = l.countP fun a => (f a).isSome := by
  have hsum := sum_countP_eq_length hnodup id (l := l.filterMap f) fun key hkey => by
    obtain ⟨a, ha, hkey⟩ := List.mem_filterMap.mp hkey
    exact h a ha key hkey
  rw [List.length_filterMap_eq_countP] at hsum
  rw [← hsum]
  refine congrArg List.sum (List.map_congr_left fun key _ => ?_)
  rw [List.countP_filterMap]
  refine List.countP_congr fun a _ => ?_
  cases f a <;> simp

/-! ## Groups of one field -/

/-- How many distinct values of a field there are. -/
def distinct (field : String) (documents : List Members) : Nat :=
  (documents.filterMap (textOf field)).eraseDups.length

/-- The documents that have a field, by its values. -/
structure Groups (field : String) (documents : List Members) (groups : List (Json × List Members)) :
    Prop where
  nodup : (groups.map (·.1.render)).Nodup
  mem_iff : ∀ text, text ∈ groups.map (·.1.render) ↔
    ∃ document ∈ documents, textOf field document = some text
  members : ∀ group ∈ groups,
    group.2 = documents.filter (textOf field · = some group.1.render)

variable {field : String} {documents : List Members} {groups groups' : List (Json × List Members)}

theorem Groups.perm (h : Groups field documents groups) (hperm : groups'.Perm groups) :
    Groups field documents groups' where
  nodup := (hperm.map _).nodup_iff.mpr h.nodup
  mem_iff := fun text => ((hperm.map _).mem_iff).trans (h.mem_iff text)
  members := fun group hgroup => h.members group (hperm.mem_iff.mp hgroup)

/-- The documents that have a field, with its value and the text of it. -/
def entriesOf (field : String) (documents : List Members) : List (String × Json × Members) :=
  documents.filterMap fun document =>
    (lookup document field).map fun value => (value.render, value, document)

theorem map_text_entriesOf (field : String) (documents : List Members) :
    (entriesOf field documents).map (·.1) = documents.filterMap (textOf field) := by
  simp only [entriesOf, List.map_filterMap, Option.map_map]
  rfl

theorem render_of_mem_entriesOf {entry : String × Json × Members}
    (h : entry ∈ entriesOf field documents) : entry.2.1.render = entry.1 := by
  simp only [entriesOf, List.mem_filterMap, Option.map_eq_some_iff] at h
  obtain ⟨document, -, value, -, rfl⟩ := h
  rfl

theorem map_document_filter_entriesOf (field : String) (documents : List Members) (text : String) :
    ((entriesOf field documents).filter (·.1 = text)).map (·.2.2) =
      documents.filter (textOf field · = some text) := by
  induction documents with
  | nil => rfl
  | cons document documents ih =>
      rw [List.filter_cons, ← ih]
      cases hlookup : lookup document field with
      | none =>
          have htext : textOf field document = none := by rw [textOf, hlookup, Option.map_none]
          simp [entriesOf, hlookup, htext]
      | some value =>
          have htext : textOf field document = some value.render := by
            rw [textOf, hlookup, Option.map_some]
          by_cases h : value.render = text
          · simp [entriesOf, hlookup, htext, h]
          · simp [entriesOf, hlookup, htext, h]

/-- A group for each text of a list, from entries that have them all. -/
theorem filterMap_groups {entries : List (String × Json × Members)}
    (hrender : ∀ entry ∈ entries, entry.2.1.render = entry.1) {texts : List String}
    (h : ∀ text ∈ texts, ∃ entry ∈ entries, entry.1 = text) :
    let groups : List (Json × List Members) := texts.filterMap fun text =>
      match entries.filter (·.1 = text) with
      | [] => none
      | (_, value, document) :: rest => some (value, document :: rest.map (·.2.2))
    groups.map (·.1.render) = texts ∧
      ∀ group ∈ groups, group.2 = (entries.filter (·.1 = group.1.render)).map (·.2.2) := by
  intro groups
  induction texts with
  | nil => exact ⟨rfl, by simp [groups]⟩
  | cons text texts ih =>
      obtain ⟨ihMap, ihMembers⟩ := ih fun text htext => h text (List.mem_cons_of_mem _ htext)
      obtain ⟨entry, hentry, htext⟩ := h text List.mem_cons_self
      cases hfilter : entries.filter (·.1 = text) with
      | nil =>
          have : entry ∈ entries.filter (·.1 = text) := by simp [hentry, htext]
          rw [hfilter] at this
          cases this
      | cons first rest =>
          have hfirst : first ∈ entries.filter (·.1 = text) := hfilter ▸ List.mem_cons_self
          simp only [List.mem_filter, decide_eq_true_eq] at hfirst
          have hvalue : first.2.1.render = text := (hrender first hfirst.1).trans hfirst.2
          have hgroups : groups = (first.2.1, first.2.2 :: rest.map (·.2.2)) ::
              texts.filterMap fun text =>
                match entries.filter (·.1 = text) with
                | [] => none
                | (_, value, document) :: rest => some (value, document :: rest.map (·.2.2)) :=
            List.filterMap_cons_some (by rw [hfilter])
          rw [hgroups]
          refine ⟨?_, fun group hgroup => ?_⟩
          · rw [List.map_cons, hvalue, ihMap]
          · rw [List.mem_cons] at hgroup
            rcases hgroup with rfl | hgroup
            · rw [hvalue, hfilter]
              rfl
            · exact ihMembers group hgroup

theorem groupByField_eq (field : String) (documents : List Members) :
    (groupByField field documents).map (·.1.render) =
        (documents.filterMap (textOf field)).eraseDups ∧
      ∀ group ∈ groupByField field documents,
        group.2 = documents.filter (textOf field · = some group.1.render) := by
  have htexts := map_text_entriesOf field documents
  obtain ⟨hmap, hgroups⟩ := @filterMap_groups (entriesOf field documents)
    (fun _ => render_of_mem_entriesOf) (documents.filterMap (textOf field)).eraseDups (by
      intro text htext
      rw [List.mem_eraseDups, ← htexts] at htext
      exact List.mem_map.mp htext)
  have hgroupBy : groupByField field documents =
      (documents.filterMap (textOf field)).eraseDups.filterMap fun text =>
        match (entriesOf field documents).filter (·.1 = text) with
        | [] => none
        | (_, value, document) :: rest => some (value, document :: rest.map (·.2.2)) := by
    rw [← htexts]
    rfl
  rw [hgroupBy]
  refine ⟨hmap, fun group hgroup => ?_⟩
  rw [← map_document_filter_entriesOf]
  exact hgroups group hgroup

theorem perm_sortGroups (groups : List (Json × List Members)) :
    (sortGroups groups).Perm groups := by
  unfold sortGroups
  exact List.mergeSort_perm groups _

theorem groups_sortGroups (field : String) (documents : List Members) :
    Groups field documents (sortGroups (groupByField field documents)) := by
  obtain ⟨hmap, hmembers⟩ := groupByField_eq field documents
  have hgroups : Groups field documents (groupByField field documents) := {
    nodup := by
      rw [hmap]
      exact nodup_eraseDups _
    mem_iff := by
      intro text
      rw [hmap, List.mem_eraseDups, List.mem_filterMap]
    members := hmembers }
  exact hgroups.perm (perm_sortGroups _)

theorem length_sortGroups (field : String) (documents : List Members) :
    (sortGroups (groupByField field documents)).length = distinct field documents := by
  rw [(perm_sortGroups _).length_eq, distinct, ← (groupByField_eq field documents).1,
    List.length_map]

theorem Groups.ne_nil (h : Groups field documents groups) {group : Json × List Members}
    (hgroup : group ∈ groups) : group.2 ≠ [] := by
  obtain ⟨document, hdocument, htext⟩ :=
    (h.mem_iff group.1.render).mp (List.mem_map_of_mem hgroup)
  rw [h.members group hgroup]
  exact List.ne_nil_of_mem (List.mem_filter.mpr ⟨hdocument, by simpa using htext⟩)

theorem Groups.existsUnique (h : Groups field documents groups) {document : Members}
    (hdocument : document ∈ documents) {value : Json} (hvalue : lookup document field = some value) :
    ∃! group, group ∈ groups ∧ group.1.render = value.render := by
  have htext : textOf field document = some value.render := by
    rw [textOf, hvalue, Option.map_some]
  obtain ⟨group, hgroup, hrender⟩ :=
    List.mem_map.mp ((h.mem_iff value.render).mpr ⟨document, hdocument, htext⟩)
  refine ⟨group, ⟨hgroup, hrender⟩, fun other hother => ?_⟩
  exact List.inj_on_of_nodup_map h.nodup hother.1 hgroup (hother.2.trans hrender.symm)

theorem Groups.sum_length (h : Groups field documents groups) :
    (groups.map (·.2.length)).sum =
      documents.countP fun document => (lookup document field).isSome := by
  have hsum := sum_countP_eq_countP_isSome h.nodup (textOf field)
    fun document hdocument text htext => (h.mem_iff text).mpr ⟨document, hdocument, htext⟩
  simp only [textOf, Option.isSome_map] at hsum
  rw [← hsum, List.map_map]
  refine congrArg List.sum (List.map_congr_left fun group hgroup => ?_)
  rw [h.members group hgroup, ← List.countP_eq_length_filter]
  rfl

/-! ## Tuples of values -/

/-- The tuples of values of group fields, in the order in which a store lists them. -/
def tuples : List String → List Members → List (List Json)
  | [], documents => if documents.isEmpty then [] else [[]]
  | field :: grouping, documents =>
    (sortGroups (groupByField field documents)).flatMap fun group =>
      (tuples grouping group.2).map (group.1 :: ·)

/-- How many documents have a tuple of values. -/
def count (grouping : List String) (documents : List Members) (values : List Json) : Nat :=
  documents.countP (texts grouping · = Json.textsOf values)

/-- Tuples of values that stand for those of the documents, each once. -/
structure Tally (grouping : List String) (documents : List Members) (tuples : List (List Json)) :
    Prop where
  nodup : (tuples.map Json.textsOf).Nodup
  mem_iff : ∀ key, key ∈ tuples.map Json.textsOf ↔
    ∃ document ∈ documents, texts grouping document = key

/-- Whether every document has a value for all group fields. -/
def Present (grouping : List String) (documents : List Members) : Prop :=
  ∀ document ∈ documents, ∀ field ∈ grouping, (lookup document field).isSome = true

/-- Whether no group has more groups inside than are kept. -/
def Fits (size : Nat) : List String → List Members → Prop
  | [], _ => True
  | field :: grouping, documents => distinct field documents ≤ size ∧
      ∀ text, Fits size grouping (documents.filter (textOf field · = some text))

variable {grouping : List String}

theorem Present.group (h : Present (field :: grouping) documents) (text : String) :
    Present grouping (documents.filter (textOf field · = some text)) :=
  fun document hdocument name hname =>
    h document (List.mem_filter.mp hdocument).1 name (List.mem_cons_of_mem field hname)

theorem texts_cons_eq_iff {document : Members} {value : Json} {values : List Json} :
    texts (field :: grouping) document = Json.textsOf (value :: values) ↔
      textOf field document = some value.render ∧ texts grouping document = Json.textsOf values := by
  simp only [texts, Json.textsOf, List.map_cons, List.cons.injEq]

/-- Inside a group the first value of a tuple is settled. -/
theorem count_cons (field : String) (grouping : List String) (documents : List Members)
    (value : Json) (values : List Json) :
    count (field :: grouping) documents (value :: values) =
      count grouping (documents.filter (textOf field · = some value.render)) values := by
  rw [count, count, List.countP_filter]
  refine List.countP_congr fun document _ => ?_
  simp only [decide_eq_true_eq, Bool.and_eq_true, texts_cons_eq_iff]
  exact and_comm

theorem count_nil (documents : List Members) : count [] documents [] = documents.length := by
  rw [count]
  exact List.countP_eq_length.mpr fun _ _ => by simp [texts, Json.textsOf]

theorem map_textsOf_tuples_cons (field : String) (grouping : List String)
    (documents : List Members) :
    (tuples (field :: grouping) documents).map Json.textsOf =
      (sortGroups (groupByField field documents)).flatMap fun group =>
        ((tuples grouping group.2).map Json.textsOf).map (some group.1.render :: ·) := by
  simp only [tuples, List.map_flatMap, List.map_map]
  rfl

theorem Tally.cons (h : Present (field :: grouping) documents)
    (hinner : ∀ group ∈ sortGroups (groupByField field documents),
      Tally grouping group.2 (tuples grouping group.2)) :
    Tally (field :: grouping) documents (tuples (field :: grouping) documents) := by
  have hgroups := groups_sortGroups field documents
  refine ⟨?_, fun key => ?_⟩
  · rw [map_textsOf_tuples_cons, List.nodup_flatMap]
    refine ⟨fun group hgroup => ?_, ?_⟩
    · exact (hinner group hgroup).nodup.map fun _ _ heq => (List.cons.inj heq).2
    · refine (List.pairwise_map.mp hgroups.nodup).imp fun {a b} hne => ?_
      simp only [Function.onFun, List.disjoint_left, List.mem_map]
      rintro key ⟨inner, -, rfl⟩ ⟨inner', -, hkey⟩
      exact hne (Option.some.inj (List.cons.inj hkey).1).symm
  · rw [map_textsOf_tuples_cons, List.mem_flatMap]
    constructor
    · rintro ⟨group, hgroup, hkey⟩
      obtain ⟨rest, hrest, rfl⟩ := List.mem_map.mp hkey
      obtain ⟨document, hdocument, htexts⟩ := ((hinner group hgroup).mem_iff rest).mp hrest
      rw [hgroups.members group hgroup, List.mem_filter, decide_eq_true_eq] at hdocument
      refine ⟨document, hdocument.1, ?_⟩
      rw [texts, List.map_cons, hdocument.2]
      exact congrArg _ htexts
    · rintro ⟨document, hdocument, rfl⟩
      obtain ⟨value, hvalue⟩ := Option.isSome_iff_exists.mp
        (h document hdocument field List.mem_cons_self)
      have htext : textOf field document = some value.render := by
        rw [textOf, hvalue, Option.map_some]
      obtain ⟨group, hgroup, hrender⟩ := List.mem_map.mp
        ((hgroups.mem_iff value.render).mpr ⟨document, hdocument, htext⟩)
      refine ⟨group, hgroup, List.mem_map.mpr ⟨texts grouping document, ?_, ?_⟩⟩
      · refine ((hinner group hgroup).mem_iff _).mpr ⟨document, ?_, rfl⟩
        rw [hgroups.members group hgroup, List.mem_filter, hrender]
        exact ⟨hdocument, by simpa using htext⟩
      · rw [hrender, ← htext]
        rfl

theorem Tally.length_eq {tuples : List (List Json)} (h : Tally grouping documents tuples)
    {values : List Json} (hvalues : values ∈ tuples) : values.length = grouping.length := by
  obtain ⟨document, -, htexts⟩ := (h.mem_iff _).mp (List.mem_map_of_mem hvalues)
  have hlength := congrArg List.length htexts
  simpa [texts, Json.textsOf] using hlength.symm

end Grouping
end Sluice
