import Sluice.Proofs.Boundaries
import Sluice.Proofs.Selection
import Sluice.Proofs.TermBuckets

/-!
The buckets of a date histogram lie one width apart, from the first that has a document to the last
that has one, and part the documents that have a time.
-/
namespace Sluice

namespace Aggregation

open Document Grouping

/-- Whether a time lies in the bucket of a width that starts at `start`. -/
def InBucket (width start millis : Int) : Prop := start ≤ millis ∧ millis < start + width

instance (width start millis : Int) : Decidable (InBucket width start millis) :=
  inferInstanceAs (Decidable (_ ∧ _))

/-- The start of the bucket around a time, in the raster of a width and an offset. -/
def startOf (width offset millis : Int) : Int := offset + (millis - offset) / width * width

variable {width offset : Nat} {start millis : Int} {keys : List Int}

/-! ## Starts of buckets -/

theorem startOf_emod (width offset : Nat) (millis : Int) :
    (startOf width offset millis - offset) % width = 0 := by
  rw [startOf, add_sub_cancel_left]
  exact Int.mul_emod_left _ _

/-- In the raster one bucket lies around each time. -/
theorem startOf_eq_iff (hwidth : 0 < width) (haligned : (start - offset) % width = 0) :
    startOf width offset millis = start ↔ InBucket width start millis := by
  have hpos : (0 : Int) < width := Int.natCast_pos.mpr hwidth
  obtain ⟨steps, hsteps⟩ := Int.dvd_of_emod_eq_zero haligned
  have hstart : start = offset + steps * width := by
    rw [Int.mul_comm]
    omega
  have hdiv : InBucket width start millis ↔ (millis - offset) / width = steps := by
    rw [Int.ediv_eq_iff_of_pos hpos, InBucket, hstart]
    omega
  rw [hdiv, hstart, startOf]
  constructor
  · intro h
    exact Int.eq_of_mul_eq_mul_right (Int.ne_of_gt hpos) (by omega)
  · intro h
    rw [h]

theorem eq_add_widths {first key : Int} (hle : first ≤ key)
    (hfirst : (first - offset) % width = 0) (hkey : (key - offset) % width = 0) :
    key = first + (((key - first) / width).toNat * width : Nat) := by
  have hdvd : (width : Int) ∣ key - first := by
    simpa using Int.dvd_sub (Int.dvd_of_emod_eq_zero hkey) (Int.dvd_of_emod_eq_zero hfirst)
  have hnonneg : 0 ≤ (key - first) / width := Int.ediv_nonneg (by omega) (by omega)
  rw [Int.natCast_mul, Int.toNat_of_nonneg hnonneg, Int.ediv_mul_cancel hdvd]
  omega

/-- From the least to the greatest of keys in the raster, the starts miss none of them. -/
theorem bucketStarts_eq_map (hwidth : 0 < width)
    (haligned : ∀ key ∈ keys, (key - offset) % width = 0) (hne : keys ≠ []) :
    ∃ first n, first ∈ keys ∧ first + (n * width : Nat) ∈ keys ∧
      bucketStarts width keys =
        (List.range (n + 1)).map (fun i : Nat => first + (i * width : Nat)) ∧
      ∀ key ∈ keys, key ∈ bucketStarts width keys := by
  obtain ⟨first, hfirst⟩ := Option.isSome_iff_exists.mp (List.isSome_min?_of_ne_nil hne)
  obtain ⟨last, hlast⟩ := Option.isSome_iff_exists.mp (List.isSome_max?_of_ne_nil hne)
  have hstarts : bucketStarts width keys = (List.range (((last - first) / width).toNat + 1)).map
      fun i : Nat => first + (i * width : Nat) := by
    simp only [bucketStarts, hfirst, hlast]
  obtain ⟨hfirst, hleast⟩ := List.min?_eq_some_iff.mp hfirst
  obtain ⟨hlast, hgreatest⟩ := List.max?_eq_some_iff.mp hlast
  have hwidths : ∀ key ∈ keys, key = first + (((key - first) / width).toNat * width : Nat) :=
    fun key hkey => eq_add_widths (hleast key hkey) (haligned first hfirst) (haligned key hkey)
  refine ⟨first, ((last - first) / width).toNat, hfirst, ?_, hstarts, fun key hkey => ?_⟩
  · rw [← hwidths last hlast]
    exact hlast
  · rw [hstarts, List.mem_map]
    refine ⟨((key - first) / width).toNat, List.mem_range.mpr ?_, (hwidths key hkey).symm⟩
    have hle := Int.ediv_le_ediv (Int.natCast_pos.mpr hwidth)
      (Int.sub_le_sub_right (hgreatest key hkey) first)
    omega

/-- Starts that lie one width apart in a raster, from a first key to a last one. -/
structure Spans (width offset : Nat) (keys starts : List Int) : Prop where
  eq_nil_iff : starts = [] ↔ keys = []
  spaced : ∃ first : Int, starts = (List.range starts.length).map fun i : Nat =>
    first + (i * width : Nat)
  aligned : ∀ start ∈ starts, (start - offset) % width = 0
  covers : ∀ key ∈ keys, key ∈ starts
  first_mem : ∀ start ∈ starts.head?, start ∈ keys
  last_mem : ∀ start ∈ starts.getLast?, start ∈ keys

theorem spans_bucketStarts (hwidth : 0 < width)
    (haligned : ∀ key ∈ keys, (key - offset) % width = 0) :
    Spans width offset keys (bucketStarts width keys) := by
  by_cases hne : keys = []
  · subst hne
    exact ⟨⟨fun _ => rfl, fun _ => rfl⟩, ⟨0, rfl⟩, by simp [bucketStarts], by simp,
      by simp [bucketStarts], by simp [bucketStarts]⟩
  · obtain ⟨first, n, hfirst, hlast, hstarts, hcovers⟩ :=
      bucketStarts_eq_map hwidth haligned hne
    have hhead : (bucketStarts width keys).head? = some first := by
      rw [hstarts, List.range_succ_eq_map]
      simp
    have hgetLast : (bucketStarts width keys).getLast? = some (first + (n * width : Nat)) := by
      rw [hstarts, List.range_succ]
      simp
    refine ⟨⟨fun h => ?_, fun h => absurd h hne⟩, ⟨first, ?_⟩, ?_, hcovers, ?_, ?_⟩
    · rw [h] at hhead
      cases hhead
    · rw [hstarts, List.length_map, List.length_range]
    · intro start hstart
      rw [hstarts] at hstart
      obtain ⟨i, -, rfl⟩ := List.mem_map.mp hstart
      have hfirstAligned := haligned first hfirst
      rw [add_sub_right_comm, Int.natCast_mul, Int.add_mul_emod_self_right]
      exact hfirstAligned
    · intro start hstart
      rw [hhead] at hstart
      cases hstart
      exact hfirst
    · intro start hstart
      rw [hgetLast] at hstart
      cases hstart
      exact hlast

theorem Spans.nodup {starts : List Int} (h : Spans width offset keys starts) (hwidth : 0 < width) :
    starts.Nodup := by
  obtain ⟨first, hstarts⟩ := h.spaced
  rw [hstarts]
  refine List.nodup_range.map fun i j hij => ?_
  exact Nat.eq_of_mul_eq_mul_right hwidth (by simpa using hij)

/-! ## Documents by their times -/

variable {field : String} {documents : List Members}

/-- Whether the start of every document's bucket is found without leaving 64 bits. -/
def FitsWords (field : String) (width offset : Nat) (documents : List Members) : Prop :=
  ∀ document ∈ documents, ∀ m, time? field document = some m →
    Moment.FloorFits m.toMillis width offset

/-- The start of the bucket that a document is in, if it has a time. -/
def bucketOf (field : String) (width offset : Nat) (document : Members) : Option Int :=
  (time? field document).map fun m => startOf width offset m.toMillis

theorem bucketOf_eq_some_iff (hwidth : 0 < width) (haligned : (start - offset) % width = 0)
    {document : Members} : bucketOf field width offset document = some start ↔
      (time? field document).any (fun m => InBucket width start m.toMillis) = true := by
  rw [bucketOf]
  cases time? field document with
  | none => simp
  | some m => simp [startOf_eq_iff hwidth haligned]

theorem keyByTime_eq_filterMap (hwidth : 0 < width)
    (h : FitsWords field width offset documents) :
    keyByTime field width offset documents = documents.filterMap fun document =>
      (bucketOf field width offset document).map (·, document) := by
  refine List.filterMap_congr fun document hdocument => ?_
  rw [← time?, bucketOf]
  cases hm : time? field document with
  | none => rfl
  | some m =>
      have hfloor := Moment.floorMillis?_of_fits (Int.natCast_pos.mpr hwidth)
        (h document hdocument m hm)
      simp [hfloor, startOf]

/-- The groups of a histogram: the starts of its buckets with their documents. -/
def timeGroups (field : String) (width offset : Nat) (documents : List Members) :
    List (Int × List Members) :=
  let keyed := keyByTime field width offset documents
  (bucketStarts width (keyed.map Prod.fst)).map fun start =>
    (start, (keyed.filter (·.1 = start)).map Prod.snd)

/-- How groups tile the times of documents. -/
structure Tiles (field : String) (width offset : Nat) (documents : List Members)
    (groups : List (Int × List Members)) : Prop where
  eq_nil_iff : groups = [] ↔ ∀ document ∈ documents, time? field document = none
  spaced : ∃ first : Int, groups.map Prod.fst =
    (List.range groups.length).map fun i : Nat => first + (i * width : Nat)
  aligned : ∀ group ∈ groups, (group.1 - offset) % width = 0
  members : ∀ group ∈ groups, group.2 = documents.filter fun document =>
    (time? field document).any fun m => InBucket width group.1 m.toMillis
  unique : ∀ document ∈ documents, ∀ m, time? field document = some m →
    ∃! group, group ∈ groups ∧ InBucket width group.1 m.toMillis
  first_ne_nil : ∀ group ∈ groups.head?, group.2 ≠ []
  last_ne_nil : ∀ group ∈ groups.getLast?, group.2 ≠ []
  total : (groups.map (·.2.length)).sum =
    documents.countP fun document => (time? field document).isSome

theorem map_snd_filter_keyed {α κ : Type} [DecidableEq κ] (f : α → Option κ) (l : List α)
    (key : κ) : ((l.filterMap fun a => (f a).map (·, a)).filter (·.1 = key)).map Prod.snd =
      l.filter (f · = some key) := by
  induction l with
  | nil => rfl
  | cons a l ih =>
      rw [List.filter_cons, ← ih]
      cases hkey : f a with
      | none => simp [hkey]
      | some other =>
          by_cases h : other = key
          · simp [hkey, h]
          · simp [hkey, h]

theorem timeGroups_eq_map (hwidth : 0 < width) (h : FitsWords field width offset documents) :
    timeGroups field width offset documents =
      (bucketStarts width (documents.filterMap (bucketOf field width offset))).map fun start =>
        (start, documents.filter (bucketOf field width offset · = some start)) := by
  rw [timeGroups, keyByTime_eq_filterMap hwidth h]
  have hstarts : (documents.filterMap fun document =>
      (bucketOf field width offset document).map (·, document)).map Prod.fst =
        documents.filterMap (bucketOf field width offset) := by
    simp [List.map_filterMap, Function.comp_def]
  simp only [hstarts, map_snd_filter_keyed]

theorem tiles_timeGroups (hwidth : 0 < width) (h : FitsWords field width offset documents) :
    Tiles field width offset documents (timeGroups field width offset documents) := by
  have hspans := @spans_bucketStarts width offset
    (documents.filterMap (bucketOf field width offset)) hwidth fun key hkey => by
      obtain ⟨document, -, hkey⟩ := List.mem_filterMap.mp hkey
      obtain ⟨m, -, rfl⟩ := Option.map_eq_some_iff.mp hkey
      exact startOf_emod width offset m.toMillis
  rw [timeGroups_eq_map hwidth h]
  generalize bucketStarts width (documents.filterMap (bucketOf field width offset)) = starts at *
  have hbucket : ∀ start ∈ starts, ∀ document,
      bucketOf field width offset document = some start ↔
        (time? field document).any (fun m => InBucket width start m.toMillis) = true :=
    fun start hstart document => bucketOf_eq_some_iff hwidth (hspans.aligned start hstart)
  have hne : ∀ start ∈ documents.filterMap (bucketOf field width offset),
      documents.filter (bucketOf field width offset · = some start) ≠ [] := by
    intro start hstart
    obtain ⟨document, hdocument, hstart⟩ := List.mem_filterMap.mp hstart
    exact List.ne_nil_of_mem (List.mem_filter.mpr ⟨hdocument, decide_eq_true hstart⟩)
  constructor
  case eq_nil_iff =>
    rw [List.map_eq_nil_iff, hspans.eq_nil_iff, List.filterMap_eq_nil_iff]
    simp only [bucketOf, Option.map_eq_none_iff]
  case spaced =>
    obtain ⟨first, hstarts⟩ := hspans.spaced
    refine ⟨first, ?_⟩
    rw [List.map_map, List.length_map, ← hstarts]
    exact List.map_id _
  case aligned =>
    intro group hgroup
    obtain ⟨start, hstart, rfl⟩ := List.mem_map.mp hgroup
    exact hspans.aligned start hstart
  case members =>
    intro group hgroup
    obtain ⟨start, hstart, rfl⟩ := List.mem_map.mp hgroup
    simp only [hbucket start hstart, Bool.decide_eq_true]
  case unique =>
    intro document hdocument m hm
    have hkey : bucketOf field width offset document =
        some (startOf width offset m.toMillis) := by
      rw [bucketOf, hm, Option.map_some]
    have hmem := hspans.covers _ (List.mem_filterMap.mpr ⟨document, hdocument, hkey⟩)
    refine ⟨_, ⟨List.mem_map_of_mem hmem, (startOf_eq_iff hwidth (hspans.aligned _ hmem)).mp rfl⟩,
      ?_⟩
    rintro group ⟨hgroup, hin⟩
    obtain ⟨start, hstart, rfl⟩ := List.mem_map.mp hgroup
    rw [(startOf_eq_iff hwidth (hspans.aligned start hstart)).mpr hin]
  case first_ne_nil =>
    intro group hgroup
    rw [List.head?_map] at hgroup
    obtain ⟨start, hstart, rfl⟩ := Option.map_eq_some_iff.mp hgroup
    exact hne start (hspans.first_mem start hstart)
  case last_ne_nil =>
    intro group hgroup
    rw [List.getLast?_map] at hgroup
    obtain ⟨start, hstart, rfl⟩ := Option.map_eq_some_iff.mp hgroup
    exact hne start (hspans.last_mem start hstart)
  case total =>
    have hsum := sum_countP_eq_countP_isSome (hspans.nodup hwidth) (bucketOf field width offset)
      fun document hdocument start hstart =>
        hspans.covers start (List.mem_filterMap.mpr ⟨document, hdocument, hstart⟩)
    simp only [bucketOf, Option.isSome_map] at hsum
    rw [← hsum, List.map_map]
    refine congrArg List.sum (List.map_congr_left fun start _ => ?_)
    exact List.countP_eq_length_filter.symm

/-! ## Answers -/

variable {sub : List (String × Aggregation)} {body result : Json}

/-- The field, the width, the offset and the least number of documents that a body asks for. -/
structure HistogramBody (body : Json) (field : String) (width offset minimum : Nat) : Prop where
  names_field : (body.member? "field").bind Json.text? = some field
  reads_width : ∃ text, (body.member? "fixed_interval").bind Json.text? = some text ∧
    Duration.parseMillis text = .ok width
  width_pos : 0 < width
  reads_offset : (body.member? "offset").bind Json.text? = none ∧ offset = 0 ∨
    ∃ text, (body.member? "offset").bind Json.text? = some text ∧
      Duration.parseMillis text = .ok offset
  reads_minimum : minimum = ((body.member? "min_doc_count").bind Json.unsigned?).getD 0

theorem readHistogram_cases (body : Json) (sub : List (String × Aggregation)) :
    (∃ reason, readHistogram body sub = .rejected reason) ∨
      ∃ field width offset minimum, HistogramBody body field width offset minimum ∧
        readHistogram body sub = .histogram field width offset minimum sub := by
  unfold readHistogram withField
  split
  · rename_i field hfield
    split
    · exact .inl ⟨_, rfl⟩
    · exact .inl ⟨_, rfl⟩
    · rename_i interval _ hinterval
      split
      · exact .inl ⟨_, rfl⟩
      · exact .inl ⟨_, rfl⟩
      · rename_i width hzero hwidth
        have hpos : 0 < width := Nat.pos_of_ne_zero hzero
        dsimp only
        split
        · rename_i hoffset
          exact .inr ⟨field, width, 0, _,
            ⟨hfield, ⟨interval, hinterval, hwidth⟩, hpos, .inl ⟨hoffset, rfl⟩, rfl⟩, rfl⟩
        · rename_i text htext
          split
          · exact .inl ⟨_, rfl⟩
          · rename_i offset hoffset
            exact .inr ⟨field, width, offset, _,
              ⟨hfield, ⟨interval, hinterval, hwidth⟩, hpos, .inr ⟨text, htext, hoffset⟩, rfl⟩, rfl⟩
  · exact .inl ⟨_, rfl⟩

/-- A date histogram that succeeds reads a field, a width and an offset. As long as 64 bits suffice
for its buckets, they tile the times of the documents, and those of too few documents are left
out. -/
theorem evaluate_readHistogram_tiles
    (h : evaluate (readHistogram body sub) documents = .ok result) :
    ∃ field width offset minimum, HistogramBody body field width offset minimum ∧
      (FitsWords field width offset documents →
        ∃ groups buckets, Tiles field width offset documents groups ∧
          List.Forall₂ (fun group => IsBucket sub (.int group.1)
            ((Moment.ofMillis group.1).toOption.map Moment.format) group.2)
              (groups.filter (minimum ≤ ·.2.length)) buckets ∧
          result = .object [("buckets", .list buckets)]) := by
  rcases readHistogram_cases body sub with ⟨reason, hbody⟩ | ⟨field, width, offset, minimum, hbody,
    hread⟩
  · rw [hbody, evaluate] at h
    cases h
  · rw [hread, evaluate] at h
    obtain ⟨buckets, hbuckets, h⟩ := bind_eq_ok.mp h
    cases h
    have hforall := forall₂_isBucket Json.int
      (fun start => (Moment.ofMillis start).toOption.map Moment.format) hbuckets
    exact ⟨field, width, offset, minimum, hbody, fun hfits =>
      ⟨_, buckets, tiles_timeGroups hbody.width_pos hfits, hforall, rfl⟩⟩

/-- A bucket with a time just before the epoch, which counts as its first millisecond, an empty
bucket, and one more. -/
theorem evaluate_readHistogram_tiles_empty :
    let body : Json := .object [("field", .text "at"), ("fixed_interval", .text "20ms"),
      ("offset", .text "3ms")]
    let times : List Json :=
      [.text "1970-01-01T00:00:00.025Z", .text "1969-12-31T23:59:59.9995Z", .null]
    let documents : List Members := times.map fun time => [("at", time)]
    let bucket (key : Int) (keyText : String) (count : Nat) : Json :=
      .object [("doc_count", .nat count), ("key", .int key), ("key_as_string", .text keyText)]
    let result : Json := .object [("buckets", .list [bucket (-17) "1969-12-31T23:59:59.983Z" 1,
      bucket 3 "1970-01-01T00:00:00.003Z" 0, bucket 23 "1970-01-01T00:00:00.023Z" 1])]
    evaluate (readHistogram body []) documents = .ok result ∧ FitsWords "at" 20 3 documents ∧
      ∃ groups buckets, Tiles "at" 20 3 documents groups ∧
        List.Forall₂ (fun group => IsBucket [] (.int group.1)
          ((Moment.ofMillis group.1).toOption.map Moment.format) group.2)
            (groups.filter (0 ≤ ·.2.length)) buckets ∧
        result = .object [("buckets", .list buckets)] := by
  intro body times documents bucket result
  have hwidth : Duration.parseMillis "20ms" = .ok 20 := by cbv
  have hoffset : Duration.parseMillis "3ms" = .ok 3 := by cbv
  have hread : readHistogram body [] = .histogram "at" 20 3 0 [] := by
    simp [body, readHistogram, withField, Json.member?, Members.get?, Json.text?, hwidth, hoffset]
  have hresult : evaluate (readHistogram body []) documents = .ok result := by
    rw [hread]
    cbv
  have hfits : FitsWords "at" 20 3 documents := by
    intro document hdocument m hm
    have htime : m = .utc 25000000 ∨ m = .utc (-500000) := by
      simp only [documents, times, List.map_cons, List.map_nil, List.mem_cons, List.not_mem_nil,
        or_false] at hdocument
      rcases hdocument with rfl | rfl | rfl
      · exact .inl (Option.some.inj (hm.symm.trans (by decide +kernel)))
      · exact .inr (Option.some.inj (hm.symm.trans (by decide +kernel)))
      · cases hm
    rcases htime with rfl | rfl
    · exact ⟨by decide, by decide, by decide⟩
    · exact ⟨by decide, by decide, by decide⟩
  obtain ⟨field, width, offset, minimum, ⟨hfield, ⟨text, htext, hwidth'⟩, -, hshift, hminimum⟩,
    htiles⟩ := evaluate_readHistogram_tiles hresult
  cases hfield
  cases htext
  cases hwidth.symm.trans hwidth'
  rcases hshift with ⟨habsent, -⟩ | ⟨text, htext, hoffset'⟩
  · cases habsent
  · cases htext
    cases hoffset.symm.trans hoffset'
    cases hminimum
    exact ⟨hresult, hfits, htiles hfits⟩

end Aggregation
end Sluice
