import Mathlib
import Sluice.Proofs.Rejections

/-!
Causes at any depth. The fault of a payload is the foremost of those that its causes tell of, in a
fixed order and wherever the causes stand, so that causes which tell of none may be put around them.
-/
namespace Sluice

theorem Members.mem_of_get? {key : String} {value : Json} {members : Members}
    (h : Members.get? key members = some value) : (key, value) ∈ members := by
  induction members with
  | nil => cases h
  | cons entry rest ih =>
      obtain ⟨k, v⟩ := entry
      rw [Members.get?] at h
      split at h
      · subst_vars
        cases h
        exact List.mem_cons_self
      · exact List.mem_cons_of_mem _ (ih h)

namespace Fault

namespace Cause

/-! ## Where causes stand -/

/-- What a value says itself. -/
def own? : Json → Option Cause
  | .text reason => some ⟨"", reason, none⟩
  | .object members => some (ofMembers members)
  | _ => none

def listUnder (key : String) (members : Members) : List Json :=
  match Members.get? key members with
  | some (.list items) => items
  | _ => []

def objectUnder (key : String) (members : Members) : List Json :=
  match Members.get? key members with
  | some (.object inner) => [.object inner]
  | _ => []

/-- The values that may be causes of an object. -/
def children : Json → List Json
  | .object members =>
    listUnder "root_cause" members ++ listUnder "failed_shards" members ++
      objectUnder "reason" members ++ objectUnder "caused_by" members
  | _ => []

/-- A cause stands in an error, at any depth. -/
inductive Within (cause : Cause) : Json → Prop
  | self {error : Json} (h : own? error = some cause) : Within cause error
  | nested {error child : Json} (hmem : child ∈ children error) (h : Within cause child) :
      Within cause error

theorem inList_eq (key : String) (members : Members) :
    inList key members = (listUnder key members).flatMap collect := by
  have hitems : ∀ items, collectItems items = items.flatMap collect := by
    intro items
    induction items with
    | nil => rfl
    | cons item items ih => rw [collectItems, List.flatMap_cons, ih]
  induction members with
  | nil => rfl
  | cons entry rest ih =>
      obtain ⟨k, value⟩ := entry
      by_cases hkey : k = key
      · cases value <;> simp [inList, listUnder, Members.get?, hkey, hitems]
      · cases value <;> simpa [inList, listUnder, Members.get?, hkey] using ih

theorem inObject_eq (key : String) (members : Members) :
    inObject key members = (objectUnder key members).flatMap collect := by
  induction members with
  | nil => rfl
  | cons entry rest ih =>
      obtain ⟨k, value⟩ := entry
      by_cases hkey : k = key
      · cases value <;> simp [inObject, objectUnder, Members.get?, hkey]
      · cases value <;> simpa [inObject, objectUnder, Members.get?, hkey] using ih

theorem collect_eq (error : Json) :
    collect error = (own? error).toList ++ (children error).flatMap collect := by
  cases error with
  | object members =>
      simp only [collect, own?, children, Option.toList_some, inList_eq, inObject_eq,
        List.flatMap_append, List.singleton_append]
  | text reason => simp [collect, own?, children]
  | _ => simp [collect, own?, children]

theorem sizeOf_lt_of_get? {key : String} {value : Json} {members : Members}
    (h : Members.get? key members = some value) : sizeOf value < sizeOf (Json.object members) := by
  have hmem := List.sizeOf_lt_of_mem (Members.mem_of_get? h)
  simp only [Prod.mk.sizeOf_spec, Json.object.sizeOf_spec] at hmem ⊢
  omega

theorem sizeOf_lt_of_mem_children {error child : Json} (h : child ∈ children error) :
    sizeOf child < sizeOf error := by
  cases error with
  | object members =>
      have hlist : ∀ key, child ∈ listUnder key members →
          sizeOf child < sizeOf (Json.object members) := by
        intro key hmem
        unfold listUnder at hmem
        split at hmem
        · rename_i items hget
          have hitems := sizeOf_lt_of_get? hget
          have hitem := List.sizeOf_lt_of_mem hmem
          simp only [Json.list.sizeOf_spec] at hitems
          omega
        · cases hmem
      have hobject : ∀ key, child ∈ objectUnder key members →
          sizeOf child < sizeOf (Json.object members) := by
        intro key hmem
        unfold objectUnder at hmem
        split at hmem
        · rename_i hget
          rw [List.mem_singleton.mp hmem]
          exact sizeOf_lt_of_get? hget
        · cases hmem
      simp only [children, List.mem_append] at h
      rcases h with ((h | h) | h) | h
      · exact hlist _ h
      · exact hlist _ h
      · exact hobject _ h
      · exact hobject _ h
  | _ => cases h

theorem mem_collect_iff {cause : Cause} {error : Json} :
    cause ∈ collect error ↔ Within cause error := by
  constructor
  · intro h
    rw [collect_eq, List.mem_append, Option.mem_toList, List.mem_flatMap] at h
    rcases h with h | ⟨child, hchild, h⟩
    · exact .self h
    · have := sizeOf_lt_of_mem_children hchild
      exact .nested hchild (mem_collect_iff.mp h)
  · intro h
    induction h with
    | self h =>
        rw [collect_eq, List.mem_append, Option.mem_toList]
        exact .inl h
    | nested hchild _ ih =>
        rw [collect_eq, List.mem_append, List.mem_flatMap]
        exact .inr ⟨_, hchild, ih⟩
termination_by sizeOf error

/-! ## What causes tell of -/

/-- The fault that a cause tells of. -/
inductive Tells (cause : Cause) : Fault → Prop
  | missingIndex (h : cause.kind = "index_not_found_exception") :
      Tells cause (.missingIndex
        ((cause.index.or (bracketedAfter? cause.reason "no such index")).getD ""))
  | windowOverflow {text : String} {limit : Nat}
      (h : bracketedAfter? cause.reason "Result window is too large" = some text)
      (hlimit : wordOf? text = some limit) : Tells cause (.windowOverflow limit)
  | unmapped {field : String}
      (h : bracketedAfter? cause.reason "No mapping found for" = some field) :
      Tells cause (.missingField field)
  | fielddata {field : String}
      (hmapped : bracketedAfter? cause.reason "No mapping found for" = none)
      (h : bracketedAfter? cause.reason "Set fielddata=true on" = some field) :
      Tells cause (.missingField field)
  | shardKind (h : cause.kind = "no_shard_available_action_exception") : Tells cause .newIndex
  | shardReason (h : "primary shard is not active".toList <:+: cause.reason.toList) :
      Tells cause .newIndex

/-- The kinds of the causes that tell of a fault by their kind. -/
def tellingKinds : List String :=
  ["index_not_found_exception", "no_shard_available_action_exception"]

/-- The markers in the reasons of the others. -/
def markers : List String :=
  ["Result window is too large", "No mapping found for", "Set fielddata=true on",
    "primary shard is not active"]

structure Neutral (cause : Cause) : Prop where
  kind : cause.kind ∉ tellingKinds
  reason : ∀ marker ∈ markers, ¬marker.toList <:+: cause.reason.toList

instance (cause : Cause) : Decidable cause.Neutral :=
  decidable_of_iff (cause.kind ∉ tellingKinds ∧
    ∀ marker ∈ markers, ¬marker.toList <:+: cause.reason.toList)
    ⟨fun ⟨hkind, hreason⟩ => ⟨hkind, hreason⟩, fun h => ⟨h.kind, h.reason⟩⟩

end Cause

theorem after?_eq_none_iff {marker cs : List Char} : after? marker cs = none ↔ ¬marker <:+: cs := by
  induction cs with
  | nil => cases marker <;> simp [after?]
  | cons c cs ih =>
      rw [after?, List.infix_cons_iff, not_or, ← ih, ← List.isPrefixOf_iff_prefix]
      by_cases hstarts : marker.isPrefixOf (c :: cs) = true
      · simp only [hstarts, ↓reduceIte, reduceCtorEq, not_true_eq_false, false_and]
      · simp only [hstarts, ↓reduceIte, Bool.false_eq_true, not_false_eq_true, true_and]

theorem isSome_after?_iff {marker cs : List Char} :
    (after? marker cs).isSome = true ↔ marker <:+: cs := by
  rw [Option.isSome_iff_ne_none, ne_eq, after?_eq_none_iff, not_not]

theorem bracketedAfter?_eq_none {reason marker : String} (h : ¬marker.toList <:+: reason.toList) :
    bracketedAfter? reason marker = none := by
  simp [bracketedAfter?, after?_eq_none_iff.mpr h]

namespace Cause

theorem Neutral.not_tells {cause : Cause} {fault : Fault} (h : cause.Neutral) :
    ¬Tells cause fault := by
  have hbracketed : ∀ marker ∈ markers, bracketedAfter? cause.reason marker = none :=
    fun marker hmem => bracketedAfter?_eq_none (h.reason marker hmem)
  intro htells
  cases htells with
  | missingIndex hkind => exact h.kind (by simp [hkind, tellingKinds])
  | windowOverflow hmarker _ =>
      rw [hbracketed _ (by simp [markers])] at hmarker
      cases hmarker
  | unmapped hmarker =>
      rw [hbracketed _ (by simp [markers])] at hmarker
      cases hmarker
  | fielddata _ hmarker =>
      rw [hbracketed _ (by simp [markers])] at hmarker
      cases hmarker
  | shardKind hkind => exact h.kind (by simp [hkind, tellingKinds])
  | shardReason hmarker => exact h.reason _ (by simp [markers]) hmarker

end Cause

/-! ## The foremost fault -/

/-- The place of a fault in the order in which faults are looked for. -/
def rank : Fault → Nat
  | .missingIndex _ => 0
  | .windowOverflow _ => 1
  | .missingField _ => 2
  | .newIndex => 3
  | .unclassified | .connectionFailure _ => 4

namespace Cause

/-- The fault of a rank that a cause tells of. -/
def told? (cause : Cause) : Nat → Option Fault
  | 0 =>
    if cause.kind = "index_not_found_exception" then
      some (.missingIndex ((cause.index.or (bracketedAfter? cause.reason "no such index")).getD ""))
    else none
  | 1 => ((bracketedAfter? cause.reason "Result window is too large").bind wordOf?).map
    .windowOverflow
  | 2 => ["No mapping found for", "Set fielddata=true on"].findSome? fun marker =>
    (bracketedAfter? cause.reason marker).map .missingField
  | 3 =>
    if cause.kind = "no_shard_available_action_exception" ||
        (after? "primary shard is not active".toList cause.reason.toList).isSome then some .newIndex
    else none
  | _ => none

theorem Tells.rank_lt {cause : Cause} {fault : Fault} (h : Tells cause fault) : fault.rank < 4 := by
  cases h <;> simp [rank]

theorem tells_of_told? {cause : Cause} {fault : Fault} {n : Nat}
    (h : cause.told? n = some fault) : Tells cause fault ∧ fault.rank = n := by
  unfold told? at h
  split at h
  · split at h
    · rename_i hkind
      cases h
      exact ⟨.missingIndex hkind, rfl⟩
    · cases h
  · obtain ⟨limit, hlimit, rfl⟩ := Option.map_eq_some_iff.mp h
    obtain ⟨text, htext, hlimit⟩ := Option.bind_eq_some_iff.mp hlimit
    exact ⟨.windowOverflow htext hlimit, rfl⟩
  · simp only [List.findSome?_cons, List.findSome?_nil] at h
    split at h
    · rename_i hfield
      cases h
      obtain ⟨field, hbracketed, rfl⟩ := Option.map_eq_some_iff.mp hfield
      exact ⟨.unmapped hbracketed, rfl⟩
    · rename_i hnone
      split at h
      · rename_i hfield
        cases h
        obtain ⟨field, hbracketed, rfl⟩ := Option.map_eq_some_iff.mp hfield
        exact ⟨.fielddata (Option.map_eq_none_iff.mp hnone) hbracketed, rfl⟩
      · cases h
  · split at h
    · rename_i hshard
      cases h
      rw [Bool.or_eq_true, decide_eq_true_eq, isSome_after?_iff] at hshard
      rcases hshard with hkind | hmarker
      · exact ⟨.shardKind hkind, rfl⟩
      · exact ⟨.shardReason hmarker, rfl⟩
    · cases h
  · cases h

theorem Tells.told?_rank {cause : Cause} {fault : Fault} (h : Tells cause fault) :
    cause.told? fault.rank = some fault := by
  cases h with
  | missingIndex hkind => simp [rank, told?, hkind]
  | windowOverflow hmarker hlimit => simp [rank, told?, hmarker, hlimit]
  | unmapped hmarker => simp [rank, told?, hmarker]
  | fielddata hmapped hmarker => simp [rank, told?, hmapped, hmarker]
  | shardKind hkind => simp [rank, told?, hkind]
  | shardReason hmarker =>
      rw [← isSome_after?_iff] at hmarker
      simp only [rank, told?, hmarker, Bool.or_true, ↓reduceIte]

theorem told?_eq_some_iff {cause : Cause} {fault : Fault} {n : Nat} :
    cause.told? n = some fault ↔ Tells cause fault ∧ fault.rank = n :=
  ⟨tells_of_told?, fun ⟨h, hrank⟩ => hrank ▸ h.told?_rank⟩

end Cause

theorem missingIndex?_eq (causes : List Cause) :
    missingIndex? causes = causes.findSome? (·.told? 0) := by
  induction causes with
  | nil => rfl
  | cons cause causes ih =>
      by_cases hkind : cause.kind = "index_not_found_exception"
      · simp [missingIndex?, Cause.told?, hkind]
      · simpa [missingIndex?, Cause.told?, hkind] using ih

theorem newIndex?_eq (causes : List Cause) :
    newIndex? causes = causes.findSome? (·.told? 3) := by
  induction causes with
  | nil => rfl
  | cons cause causes ih =>
      rw [List.findSome?_cons, ← ih, newIndex?, newIndex?, List.any_cons]
      cases htells : decide (cause.kind = "no_shard_available_action_exception") ||
          (after? "primary shard is not active".toList cause.reason.toList).isSome with
      | false => simp only [Cause.told?, htells, Bool.false_or, Bool.false_eq_true, ↓reduceIte]
      | true => simp only [Cause.told?, htells, Bool.true_or, ↓reduceIte]

/-- Each kind of fault is looked for in all causes before the next. -/
theorem ofCauses_eq (causes : List Cause) :
    ofCauses causes =
      ((List.range 4).findSome? fun n => causes.findSome? (·.told? n)).getD .unclassified := by
  have hwindow : windowOverflow? causes = causes.findSome? (·.told? 1) := rfl
  have hfield : missingField? causes = causes.findSome? (·.told? 2) := rfl
  have hrange : List.range 4 = [0, 1, 2, 3] := rfl
  rw [ofCauses, missingIndex?_eq, hwindow, hfield, newIndex?_eq, hrange]
  simp only [List.findSome?_cons, List.findSome?_nil]
  cases causes.findSome? (·.told? 0) <;> cases causes.findSome? (·.told? 1) <;>
    cases causes.findSome? (·.told? 2) <;> cases causes.findSome? (·.told? 3) <;> rfl

/-- The fault of some causes: one of them tells of it, if any tells of one, and none of them tells
of one that goes before. -/
structure Foremost (among : Cause → Prop) (fault : Fault) : Prop where
  told : fault = .unclassified ∨ ∃ cause, among cause ∧ cause.Tells fault
  first : ∀ cause other, among cause → cause.Tells other → fault.rank ≤ other.rank

theorem foremost_ofCauses (causes : List Cause) : Foremost (· ∈ causes) (ofCauses causes) := by
  rw [ofCauses_eq]
  cases hfound : (List.range 4).findSome? fun n => causes.findSome? (·.told? n) with
  | none =>
      refine ⟨.inl rfl, fun cause other hmem htells => ?_⟩
      rw [List.findSome?_eq_none_iff] at hfound
      have hnone := List.findSome?_eq_none_iff.mp
        (hfound other.rank (List.mem_range.mpr htells.rank_lt)) cause hmem
      rw [Cause.told?_eq_some_iff.mpr ⟨htells, rfl⟩] at hnone
      cases hnone
  | some fault =>
      obtain ⟨before, n, after, hrange, hfault, hbefore⟩ := List.findSome?_eq_some_iff.mp hfound
      obtain ⟨_, cause, _, rfl, htold, -⟩ := List.findSome?_eq_some_iff.mp hfault
      obtain ⟨htells, rfl⟩ := Cause.told?_eq_some_iff.mp htold
      rw [Option.getD_some]
      refine ⟨.inr ⟨cause, by simp, htells⟩, fun cause' other hmem htells' => ?_⟩
      by_contra hlt
      have hother : other.rank ∈ before := by
        have hsorted := List.pairwise_lt_range (n := 4)
        have hmem := List.mem_range.mpr htells'.rank_lt
        simp only [hrange, List.pairwise_append, List.pairwise_cons, List.mem_append,
          List.mem_cons] at hsorted hmem
        rcases hmem with hmem | hmem | hmem
        · exact hmem
        · omega
        · have := hsorted.2.1.1 _ hmem
          omega
      have hnone := List.findSome?_eq_none_iff.mp (hbefore _ hother) cause' hmem
      rw [Cause.told?_eq_some_iff.mpr ⟨htells', rfl⟩] at hnone
      cases hnone

/-! ## Causes around causes -/

/-- Causes that tell of nothing change no fault. -/
theorem ofCauses_append {before causes after : List Cause}
    (hbefore : ∀ cause ∈ before, cause.Neutral) (hafter : ∀ cause ∈ after, cause.Neutral) :
    ofCauses (before ++ causes ++ after) = ofCauses causes := by
  have hnone : ∀ causes : List Cause, (∀ cause ∈ causes, cause.Neutral) →
      ∀ n, causes.findSome? (·.told? n) = none := by
    intro causes hneutral n
    rw [List.findSome?_eq_none_iff]
    intro cause hmem
    rw [Option.eq_none_iff_forall_ne_some]
    intro fault htold
    exact (hneutral cause hmem).not_tells (Cause.told?_eq_some_iff.mp htold).1
  simp only [ofCauses_eq, List.findSome?_append, hnone before hbefore, hnone after hafter,
    Option.none_or, Option.or_none]

/-- A cause with all that it nests, in causes that tell of nothing, at any depth. -/
inductive Wraps (error : Json) : Json → Prop
  | bare : Wraps error error
  | around {whole inner : Json} {before after : List Json}
      (hown : ∀ cause, Cause.own? whole = some cause → cause.Neutral)
      (hchildren : Cause.children whole = before ++ inner :: after)
      (hbeside : ∀ child ∈ before ++ after, ∀ cause, Cause.Within cause child → cause.Neutral)
      (h : Wraps error inner) : Wraps error whole

theorem Wraps.ofCauses_collect {error whole : Json} (h : Wraps error whole) :
    ofCauses (Cause.collect whole) = ofCauses (Cause.collect error) := by
  induction h with
  | bare => rfl
  | @around whole inner before after hown hchildren hbeside _ ih =>
      have hflat : Cause.collect whole =
          ((Cause.own? whole).toList ++ before.flatMap Cause.collect) ++ Cause.collect inner ++
            after.flatMap Cause.collect := by
        rw [Cause.collect_eq, hchildren]
        simp
      have hneutral : ∀ children : List Json, (∀ child ∈ children, child ∈ before ++ after) →
          ∀ cause ∈ children.flatMap Cause.collect, cause.Neutral := by
        intro children hsubset cause hmem
        obtain ⟨child, hchild, hmem⟩ := List.mem_flatMap.mp hmem
        exact hbeside child (hsubset child hchild) cause (Cause.mem_collect_iff.mp hmem)
      rw [hflat, ofCauses_append ?_ (hneutral after fun _ h => List.mem_append_right _ h), ih]
      intro cause hmem
      rcases List.mem_append.mp hmem with hmem | hmem
      · exact hown cause (Option.mem_toList.mp hmem)
      · exact hneutral before (fun _ h => List.mem_append_left _ h) cause hmem

/-- What a body tells of an error. -/
def errorOf (body : String) : Json :=
  let payload := (Json.parse? body).getD (.text body)
  (payload.member? "error").getD payload

theorem ofBody_eq (body : String) : ofBody body = ofCauses (Cause.collect (errorOf body)) := rfl

/-- Causes that tell of nothing may be put around an error, at any depth, without any change of its
fault. Of several faults that causes tell of, a body has the foremost, wherever the causes stand. -/
theorem ofBody_wrapped {error whole : Json} {body bare : String} (hwhole : Wraps error whole)
    (hbody : (Json.parse? body).bind (·.member? "error") = some whole)
    (hbare : (Json.parse? bare).bind (·.member? "error") = some error) :
    ofBody body = ofBody bare ∧
      ∀ body, Foremost (Cause.Within · (errorOf body)) (ofBody body) := by
  have herrorOf : ∀ {body : String} {error : Json},
      (Json.parse? body).bind (·.member? "error") = some error → errorOf body = error := by
    intro body error h
    obtain ⟨payload, hpayload, herror⟩ := Option.bind_eq_some_iff.mp h
    simp only [errorOf, hpayload, Option.getD_some, herror]
  constructor
  · rw [ofBody_eq, ofBody_eq, herrorOf hbody, herrorOf hbare]
    exact hwhole.ofCauses_collect
  · intro body
    rw [ofBody_eq]
    have hforemost := foremost_ofCauses (Cause.collect (errorOf body))
    simpa only [Cause.mem_collect_iff] using hforemost

/-- A field without a mapping, two causes deep: as the reason of a shard's failure, next to a cause
in words and another on the list of root causes. -/
theorem ofBody_wrapped_shards :
    let error : Json := .object [
      ("reason", .text "No mapping found for [host] in order to sort on"),
      ("type", .text "query_shard_exception")]
    let shard : Json := .object [("reason", error), ("shard", .nat 1)]
    let timeout : Json := .object [
      ("reason", .text "timed out"), ("type", .text "timeout_exception")]
    let whole : Json := .object [("failed_shards", .list [.text "shard 0 is slow", shard]),
      ("reason", .text "all shards failed"), ("root_cause", .list [timeout])]
    let body (error : Json) : String :=
      (Json.object [("error", error), ("status", .nat 400)]).render
    Wraps error whole ∧
      (Json.parse? (body whole)).bind (·.member? "error") = some whole ∧
      (Json.parse? (body error)).bind (·.member? "error") = some error ∧
      ofBody (body whole) = .missingField "host" := by
  intro error shard timeout whole body
  have hparse : ∀ error : Json, error.Legible → error.depth < Json.maxDepth →
      (Json.parse? (body error)).bind (·.member? "error") = some error := by
    intro error hlegible hdepth
    rw [Json.parse?_render ?_ ?_]
    · rfl
    · simp only [Json.Legible, Json.LegibleMembers, Json.nat, hlegible, List.map_cons,
        List.map_nil, List.forall_mem_cons, List.not_mem_nil, false_implies, implies_true,
        String.reduceLT, and_self, true_and, and_true]
      decide
    · simp only [Json.depth, Json.depthMembers, Json.nat]
      omega
  have hlegible : whole.Legible ∧ error.Legible := by
    simp only [whole, shard, timeout, error, Json.Legible, Json.LegibleMembers, Json.LegibleItems,
      Json.nat, List.map_cons, List.map_nil, List.forall_mem_cons, List.not_mem_nil, false_implies,
      implies_true, String.reduceLT, and_self, true_and, and_true]
    decide
  have hwhole := hparse whole hlegible.1 (by decide +kernel)
  have herror := hparse error hlegible.2 (by decide +kernel)
  have hwraps : Wraps error whole := by
    have hbeside : ∀ child ∈ [timeout, .text "shard 0 is slow"],
        ∀ cause ∈ Cause.collect child, cause.Neutral := by decide +kernel
    simp only [Cause.mem_collect_iff] at hbeside
    have hshard : Wraps error shard := by
      apply @Wraps.around error shard error [] [] _ rfl _ .bare
      · rintro _ ⟨⟩
        decide +kernel
      · intro child hmem
        cases hmem
    apply @Wraps.around error whole shard [timeout, .text "shard 0 is slow"] [] _ rfl _ hshard
    · rintro _ ⟨⟩
      decide +kernel
    · exact hbeside
  refine ⟨hwraps, hwhole, herror, (ofBody_wrapped hwraps hwhole herror).1.trans ?_⟩
  obtain ⟨payload, hpayload, hmember⟩ := Option.bind_eq_some_iff.mp herror
  rw [ofBody, hpayload, Option.getD_some, ofPayload, hmember, Option.getD_some]
  decide +kernel

end Fault

end Sluice
