import Sluice.Plan
import Sluice.Proofs.Durations
import Sluice.Proofs.Partition
import Sluice.Proofs.Rejections

/-!
The trees of pushed counts, as they are planned and as a store reads them: a level of terms for each
group field, around at most one level of time buckets. No level has anything beside it.
-/
namespace Sluice

namespace Tree

/-- A level of time buckets of `width` milliseconds, around nothing. -/
def millisLevel (timeField : String) (width offset : Int) : Members :=
  [(timeKey, .object [("date_histogram", .ofBindings ([("field", Json.text timeField),
    ("fixed_interval", .text (Duration.millisText width)), ("min_doc_count", .nat 0)] ++
      if offset = 0 then [] else [("offset", .text (Duration.millisText offset))]))])]

/-- What stands inside the groups of a pushed count: time buckets where there are windows of a fixed
width. -/
inductive Leaf (timeField : String) (phase : Option Phase) : Option Interval → Members → Prop where
  | whole : Leaf timeField phase none []
  | millis {n offset : Int} (hpos : 0 < n)
      (hshift : Windows.shift? phase (.millis n) = .ok (some offset)) :
      Leaf timeField phase (some (.millis n)) (millisLevel timeField n offset)

variable {timeField : String} {phase : Option Phase} {every : Option Interval} {leaf sub : Members}

/-- A level of time buckets, with the width of the windows as it is written, around `sub`. -/
def timeLevel (timeField : String) (written : String × Json) (offset : Int) (sub : Members) :
    Members :=
  [(timeKey, withSub [("date_histogram", .ofBindings ([("field", Json.text timeField), written,
    ("min_doc_count", .nat 0)] ++
      if offset = 0 then [] else [("offset", .text (Duration.millisText offset))]))] sub)]

theorem histogram?_eq_ok {width : Interval}
    (h : histogram? timeField width phase sub = .ok (some leaf)) :
    ∃ written offset, Windows.shift? phase width = .ok (some offset) ∧
      leaf = timeLevel timeField written offset sub ∧
      ∀ n, width = .millis n → written = ("fixed_interval", .text (Duration.millisText n)) := by
  unfold histogram? at h
  dsimp only at h
  split at h
  · cases h
  · rename_i key value hwritten
    have hmillis : ∀ n, width = .millis n →
        (key, value) = ("fixed_interval", .text (Duration.millisText n)) := by
      rintro n rfl
      cases hwritten
      rfl
    cases phase with
    | none =>
        cases h
        exact ⟨(key, value), 0, rfl, rfl, hmillis⟩
    | some phase =>
        dsimp only at h
        split at h
        · cases h
        · obtain ⟨shift, hshift, h⟩ := bind_eq_ok.mp h
          cases shift with
          | none => cases h
          | some offset =>
              cases h
              exact ⟨(key, value), offset, hshift, rfl, hmillis⟩

theorem leaf_of_histogram? {n : Int} (hpos : 0 < n)
    (h : histogram? timeField (.millis n) phase [] = .ok (some leaf)) :
    Leaf timeField phase (some (.millis n)) leaf := by
  obtain ⟨written, offset, hshift, rfl, hwritten⟩ := histogram?_eq_ok h
  rw [hwritten n rfl]
  exact .millis hpos hshift

/-! ## Properties of nodes -/

theorem withSub_terms_cons (body : Json) (node : String × Json) (rest : Members) :
    withSub [("terms", body)] (node :: rest) =
      .object [(subKey, .object (node :: rest)), ("terms", body)] := by
  simp only [withSub, List.isEmpty_cons, Bool.false_eq_true, Members.insert, subKey,
    String.reduceLT, ↓reduceIte]

theorem anyNode_groupLevel {p : String → Json → Bool} {size : Nat} {field : String}
    (h : p field (withSub [("terms", .object [("field", .text field), ("size", .nat size)])] sub) =
      false) :
    anyNode p (groupLevel size field sub) = anyNode p sub := by
  rw [groupLevel, anyNode, h, Bool.false_or]
  cases sub with
  | nil => rfl
  | cons node rest =>
      rw [withSub_terms_cons, anyBelow, anyUnder, if_pos rfl]
      exact Bool.or_false _

theorem Leaf.hasHistogram (h : Leaf timeField phase every leaf) :
    Tree.hasHistogram leaf = every.isSome := by
  cases h with
  | whole => rfl
  | millis => simp [Tree.hasHistogram, millisLevel, anyNode, Json.member?, Members.get?]

theorem member?_withSub {key : String} (h : key ≠ subKey) (node sub : Members) :
    (withSub node sub).member? key = Members.get? key node := by
  unfold withSub
  split
  · rfl
  · exact Members.get?_insert_of_ne _ _ h

/-- Groups are no time buckets, whatever their names, and time buckets are found inside them. -/
theorem hasHistogram_grouped (grouping : List String) (size : Nat) (sub : Members) :
    hasHistogram (grouping.foldr (groupLevel size) sub) = hasHistogram sub := by
  induction grouping with
  | nil => rfl
  | cons field grouping ih =>
      rw [← ih]
      apply anyNode_groupLevel
      rw [member?_withSub (by decide)]
      simp [Members.get?]

/-- Nothing in a pushed count asks for distinct values, so its groups get the default size. -/
theorem Leaf.bucketSize (h : Leaf timeField phase every leaf) (sizes : BucketSizes) :
    Tree.bucketSize leaf sizes = sizes.default := by
  have hdistinct : countsDistinct leaf = false := by
    cases h with
    | whole => rfl
    | millis =>
        simp [countsDistinct, millisLevel, anyNode, anyBelow, anyUnder, Json.member?,
          Members.get?, Json.ofBindings, subKey]
  rw [Tree.bucketSize, hdistinct]
  rfl

end Tree

/-! ## Planning -/

/-- Levels for the group fields of a descriptor, around its time buckets if it has windows. -/
structure Descriptor.Levels (d : Descriptor) (timeField : String) (size : Nat) : Prop where
  tree : ∃ leaf, Tree.Leaf timeField d.phase d.every leaf ∧
    d.tree = d.grouping.foldr (Tree.groupLevel size) leaf
  time_not_mem : timeKey ∉ d.grouping

/-- The descriptor of a count, with nothing dropped from its groups. -/
structure Descriptor.Counts (d : Descriptor) (timeField target : String) (size : Nat) : Prop
    extends d.Levels timeField size where
  countField : d.countField = some target
  emptyRow : d.emptyRow = Members.ofList [(target, .nat 0)]
  emptyFields : d.emptyFields = []
  target_ne : target ≠ timeKey

theorem Tree.leaves?_of_isPlainCount {specs : List ReducerSpec}
    (h : Plan.isPlainCount specs = true) (tree : Members) : leaves? specs tree = some tree := by
  obtain ⟨-, hall⟩ := Bool.and_eq_true_iff.mp h
  induction specs with
  | nil => rfl
  | cons spec specs ih =>
      rw [List.all_cons, Bool.and_eq_true] at hall
      obtain ⟨hspec, hrest⟩ := hall
      simp only [Bool.and_eq_true, decide_eq_true_eq] at hspec
      have hnone : spec.argument = none := Option.isNone_iff_eq_none.mp hspec.2
      rw [leaves?, hnone, if_pos hspec.1.2]
      exact ih (by simp_all [Plan.isPlainCount]) hrest

/-- The levels of a reduce step that a read takes over. -/
theorem Plan.descriptor?_levels {options : Options} {r : Reduce} {d : Descriptor}
    (h : descriptor? options r = .ok (some d)) :
    d.Levels options.timeField options.sizes.default ∧ d.grouping = r.groupBy ∧
      d.every = r.every ∧ d.phase = r.phase ∧ d.emptyFields = [] ∧
      ∃ specs, r.exprs.mapM ReduceExpr.toSpec? = some specs ∧ isPlainCount specs = true ∧
        d.countField = specs.head?.map (·.target) ∧
        d.emptyRow = Members.ofList (specs.map fun spec => (spec.target, spec.reducer.identity)) := by
  simp only [descriptor?] at h
  split at h
  · cases h
  · rename_i htime
    split at h
    · cases h
    · rename_i specs hspecs
      split at h
      · cases h
      · rename_i hplain
        simp only [Bool.or_eq_true, Bool.not_eq_eq_eq_not, Bool.not_true, not_or,
          Bool.not_eq_false] at hplain
        obtain ⟨hcount, hwindows⟩ := hplain
        obtain ⟨tree, htree, h⟩ := bind_eq_ok.mp h
        cases tree with
        | none => cases h
        | some tree =>
            cases h
            have hleaf : ∃ leaf, Tree.Leaf options.timeField r.phase r.every leaf ∧
                tree = Tree.grouped r.groupBy leaf options.sizes := by
              simp only [Tree.ofReduction?, Tree.leaves?_of_isPlainCount hcount] at htree
              cases hevery : r.every with
              | none =>
                  rw [hevery] at htree
                  cases htree
                  exact ⟨[], .whole, rfl⟩
              | some every =>
                  rw [hevery] at htree
                  obtain ⟨leaf, hhistogram, htree⟩ := bind_eq_ok.mp htree
                  cases leaf with
                  | none => cases htree
                  | some leaf =>
                      cases htree
                      simp only [hasFixedWindows, hevery, Option.any_some] at hwindows
                      cases every with
                      | months n => simp [Interval.isCalendar] at hwindows
                      | millis n =>
                          have hpos : 0 < n := by
                            simp [Interval.isCalendar, Interval.isEmpty] at hwindows
                            exact hwindows.2
                          exact ⟨leaf, Tree.leaf_of_histogram? hpos hhistogram, rfl⟩
            obtain ⟨leaf, hleaf, rfl⟩ := hleaf
            refine ⟨⟨⟨leaf, hleaf, ?_⟩, fun hmem => htime (.inl hmem)⟩, rfl, rfl, rfl, rfl, specs,
              hspecs, hcount, rfl, rfl⟩
            rw [Tree.grouped, hleaf.bucketSize]

theorem Plan.descriptor?_count {options : Options} {r : Reduce} {d : Descriptor} {target : String}
    (hcount : r.exprs.mapM ReduceExpr.toSpec? = some [⟨target, .count, none⟩])
    (h : descriptor? options r = .ok (some d)) :
    d.Counts options.timeField target options.sizes.default ∧ d.grouping = r.groupBy ∧
      d.every = r.every ∧ d.phase = r.phase := by
  obtain ⟨hlevels, hgrouping, hevery, hphase, hfields, specs, hspecs, hplain, hfield, hrow⟩ :=
    descriptor?_levels h
  obtain rfl : [⟨target, .count, none⟩] = specs := Option.some.inj (hcount.symm.trans hspecs)
  have htarget : target ≠ timeKey := by simpa [isPlainCount] using hplain
  exact ⟨⟨hlevels, hfield, hrow, hfields, htarget⟩, hgrouping, hevery, hphase⟩

/-! ## Dropping groups -/

/-- What stands inside the groups is found again. -/
theorem Tree.ungrouped_groups (grouping : List String) (size : Nat) (leaf : Members) :
    ungrouped (grouping.foldr (groupLevel size) leaf) grouping = leaf := by
  induction grouping with
  | nil => rfl
  | cons field grouping ih =>
      rw [List.foldr_cons, groupLevel, ungrouped, Members.get?, if_pos rfl]
      cases hsub : grouping.foldr (groupLevel size) leaf with
      | nil =>
          cases grouping with
          | nil => exact hsub.symm
          | cons name grouping => cases hsub
      | cons node rest =>
          rw [hsub] at ih
          rw [withSub_terms_cons]
          exact ih

/-- A descriptor without one of its groups has the levels of the others. -/
theorem Descriptor.Levels.removeField? {d fewer : Descriptor} {timeField field : String}
    {size : Nat} {sizes : BucketSizes} (h : d.Levels timeField size)
    (hfewer : d.removeField? field sizes = some fewer) :
    fewer.Levels timeField sizes.default ∧ fewer.grouping = d.grouping.filter (· ≠ field) ∧
      fewer.every = d.every ∧ fewer.phase = d.phase := by
  obtain ⟨⟨leaf, hleaf, htree⟩, htime⟩ := h
  simp only [Descriptor.removeField?] at hfewer
  split at hfewer
  · cases hfewer
    refine ⟨⟨⟨leaf, hleaf, ?_⟩, fun hmem => htime (List.mem_of_mem_filter hmem)⟩, rfl, rfl, rfl⟩
    simp only [htree, Tree.ungrouped_groups, Tree.grouped, hleaf.bucketSize]
  · cases hfewer

namespace Aggregation

/-! ## Reading -/

/-- A level of groups is read as one, with the store's own size where its size is no word. -/
theorem ofMembers_groupLevel_getD (size : Nat) (field : String) (sub : Members) :
    ofMembers (Tree.groupLevel size field sub) =
      [(field, .terms field ((Json.nat size).unsigned?.getD defaultSize) (ofMembers sub))] := by
  have hbody : ∀ below, readTerms (.object [("field", .text field), ("size", .nat size)]) below =
      .terms field ((Json.nat size).unsigned?.getD defaultSize) below := by
    intro below
    have hfield : (Json.object [("field", .text field), ("size", .nat size)]).member? "field" =
        some (.text field) := by simp [Json.member?, Members.get?]
    have hcount : (Json.object [("field", .text field), ("size", .nat size)]).member? "size" =
        some (.nat size) := by simp [Json.member?, Members.get?]
    rw [readTerms, withField, hfield, hcount, Option.bind_some, Option.bind_some]
    rfl
  cases sub with
  | nil =>
      simp only [Tree.groupLevel, Tree.withSub, List.isEmpty_nil, ↓reduceIte, ofMembers, ofJson,
        Members.get?]
      simp only [subUnder, String.reduceEq, ↓reduceIte, Option.none_or, Option.getD_none, hbody]
  | cons node rest =>
      rw [Tree.groupLevel, Tree.withSub_terms_cons, ofMembers, ofJson]
      simp only [subUnder, Tree.subKey, ↓reduceIte, Option.some_or, Option.getD_some, Members.get?,
        String.reduceEq, hbody]
      rfl

theorem ofMembers_groupLevel {size : Nat} (hsize : size < Word.unsignedLimit) (field : String)
    (sub : Members) :
    ofMembers (Tree.groupLevel size field sub) = [(field, .terms field size (ofMembers sub))] := by
  rw [ofMembers_groupLevel_getD, Json.unsigned?_nat hsize, Option.getD_some]

/-- The body of a level of time buckets. -/
def millisBody (timeField : String) (width offset : Int) : Members :=
  [("field", .text timeField), ("fixed_interval", .text (Duration.millisText width)),
    ("min_doc_count", .nat 0)] ++
      if offset = 0 then [] else [("offset", .text (Duration.millisText offset))]

theorem millisLevel_eq (timeField : String) (width offset : Int) :
    Tree.millisLevel timeField width offset =
      [(timeKey, .object [("date_histogram", .object (millisBody timeField width offset))])] := by
  simp only [Tree.millisLevel, millisBody]
  split <;>
    simp only [Json.ofBindings, Members.ofList, List.append_nil, List.cons_append, List.nil_append,
      List.foldl_cons, List.foldl_nil, Members.insert, String.reduceLT, String.reduceEq, ↓reduceIte]

theorem ofMembers_millisLevel (timeField : String) (width offset : Int) :
    ofMembers (Tree.millisLevel timeField width offset) =
      [(timeKey, readHistogram (.object (millisBody timeField width offset)) [])] := by
  simp only [millisLevel_eq, ofMembers, ofJson, subUnder, Members.get?, String.reduceEq, ↓reduceIte,
    Option.none_or, Option.getD_none]

variable {timeField : String} {width offset : Int}

theorem member?_field :
    (Json.object (millisBody timeField width offset)).member? "field" = some (.text timeField) := by
  simp [millisBody, Json.member?, Members.get?]

theorem member?_calendar_interval :
    (Json.object (millisBody timeField width offset)).member? "calendar_interval" = none := by
  unfold millisBody
  split <;> simp [Json.member?, Members.get?]

theorem member?_fixed_interval :
    (Json.object (millisBody timeField width offset)).member? "fixed_interval" =
      some (.text (Duration.millisText width)) := by
  simp [millisBody, Json.member?, Members.get?]

theorem member?_min_doc_count :
    (Json.object (millisBody timeField width offset)).member? "min_doc_count" = some (.nat 0) := by
  simp [millisBody, Json.member?, Members.get?]

theorem member?_offset :
    (Json.object (millisBody timeField width offset)).member? "offset" =
      if offset = 0 then none else some (.text (Duration.millisText offset)) := by
  unfold millisBody
  split <;> simp [Json.member?, Members.get?]

theorem ofMembers_millisLevel_of_readable (hpos : 0 < width) (hwidth : Duration.Readable width)
    (hoffset : Duration.Readable offset) :
    ofMembers (Tree.millisLevel timeField width offset) =
      [(timeKey, .histogram timeField width.toNat offset.toNat 0 [])] := by
  have hminimum : ((Json.nat 0).unsigned?).getD 0 = 0 := by
    rw [Json.unsigned?_nat (by decide)]
    rfl
  obtain ⟨wide, hwide⟩ : ∃ wide, width.toNat = wide + 1 := ⟨width.toNat - 1, by omega⟩
  rw [ofMembers_millisLevel, readHistogram, withField, member?_field, member?_calendar_interval,
    member?_fixed_interval, member?_min_doc_count, member?_offset]
  simp only [Option.bind_some, Json.text?, Duration.parseMillis_of_readable hwidth, hwide, hminimum]
  split
  · rename_i hnone
    split at hnone
    · rename_i hzero
      rw [hzero]
      rfl
    · cases hnone
  · rename_i text hsome
    split at hsome
    · cases hsome
    · cases hsome
      rw [Duration.parseMillis_of_readable hoffset]

/-- Widths and offsets that the store cannot read are refused. -/
theorem ofMembers_millisLevel_of_not_readable (hpos : 0 < width)
    (h : ¬ (Duration.Readable width ∧ Duration.Readable offset)) :
    ∃ n cause, (cause = .tooLarge ∨ cause = .numberExpected 0) ∧
      ofMembers (Tree.millisLevel timeField width offset) =
        [(timeKey, .rejected (.intervalMalformed (.malformed (Duration.millisText n) cause)))] := by
  rw [ofMembers_millisLevel, readHistogram, withField, member?_field, member?_calendar_interval,
    member?_fixed_interval, member?_min_doc_count, member?_offset]
  simp only [Option.bind_some, Json.text?]
  by_cases hwidth : Duration.Readable width
  · have hoffset : ¬ Duration.Readable offset := fun hoffset => h ⟨hwidth, hoffset⟩
    obtain ⟨cause, hcause, hparse⟩ := Duration.parseMillis_of_not_readable hoffset
    obtain ⟨wide, hwide⟩ : ∃ wide, width.toNat = wide + 1 := ⟨width.toNat - 1, by omega⟩
    have hne : offset ≠ 0 := by
      rintro rfl
      exact hoffset (by decide)
    refine ⟨offset, cause, hcause, ?_⟩
    simp only [Duration.parseMillis_of_readable hwidth, hwide, if_neg hne, Option.bind_some,
      Json.text?, hparse]
  · obtain ⟨cause, hcause, hparse⟩ := Duration.parseMillis_of_not_readable hwidth
    exact ⟨width, cause, hcause, by simp only [hparse]⟩

end Aggregation

namespace Rejection

/-! ## Refused widths -/

theorem not_mem_millisText {c : Char} (hdigit : c.isDigit = false) (hsign : c ≠ '-')
    (hunit : c ≠ 'm' ∧ c ≠ 's') (n : Int) : c ∉ (Duration.millisText n).toList := by
  have hdigits : ∀ n, c ∉ Nat.toDigits 10 n := by
    intro n hmem
    rw [Nat.isDigit_of_mem_toDigits (by decide) (by decide) hmem] at hdigit
    cases hdigit
  cases n with
  | ofNat n =>
      rw [Int.ofNat_eq_natCast, Duration.toList_millisText]
      simp [hdigits n, hunit]
  | negSucc n =>
      rw [Duration.toList_millisText_negSucc]
      simp [hdigits (n + 1), hunit, hsign]

theorem absorb_intervalMalformed {cause : Duration.Malformed}
    (hcause : cause = .tooLarge ∨ cause = .numberExpected 0) (n : Int) (status : Nat) :
    let r := intervalMalformed (.malformed (Duration.millisText n) cause)
    Store.absorb (.refused status r.payload.render) =
      .error (.store (.refused status r.payload.render)) := by
  intro r
  refine absorb_parsing rfl (fun c hc => ?_) status
  have htext : c ∉ (Duration.millisText n).toList := by
    have hletter : c = 'N' ∨ c = 'R' ∨ c = 'S' ∨ c = 'y' := by simpa using hc
    rcases hletter with rfl | rfl | rfl | rfl <;>
      exact not_mem_millisText (by decide) (by decide) (by decide) n
  have hfree : ∀ text : String, (text.toList.any ['N', 'R', 'S', 'y'].contains) = false →
      c ∉ text.toList := fun text h hmem =>
    List.any_eq_false.mp h c hmem (List.contains_iff_mem.mpr hc)
  have hreason : r.reason = "'" ++ Duration.millisText n ++ "': " ++ cause.message := by
    unfold reason
    rfl
  have hmessage : c ∉ cause.message.toList := by
    rcases hcause with rfl | rfl
    · exact hfree _ rfl
    · exact hfree _ rfl
  rw [hreason]
  simp only [String.toList_append, List.mem_append, not_or]
  exact ⟨⟨⟨hfree _ rfl, htext⟩, hfree _ rfl⟩, hmessage⟩

end Rejection
end Sluice
