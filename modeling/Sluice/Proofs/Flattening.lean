import Sluice.Proofs.Sorting
import Sluice.Proofs.WindowCounts

/-!
Flattening a tree of buckets. The rows of a response are those of its leaves, depth first and then by
time, unless a level is not as it should be: then the first fault on the way is reported.
-/
namespace Sluice

/-! ## First faults -/

section Faults

variable {ε α β : Type}

/-- A value, or the first of the faults in its way. -/
def orFault (faults : List ε) (a : α) : Except ε α :=
  match faults with
  | [] => .ok a
  | fault :: _ => .error fault

theorem orFault_bind (faults faults' : List ε) (a : α) {f : α → Except ε β} {b : β}
    (h : f a = orFault faults' b) : orFault faults a >>= f = orFault (faults ++ faults') b := by
  cases faults with
  | nil => exact h
  | cons fault faults => rfl

theorem orFault_map (faults : List ε) (a : α) (f : α → β) :
    (orFault faults a >>= fun a => pure (f a)) = orFault faults (f a) := by
  cases faults <;> rfl

theorem orFault_eq_ok {faults : List ε} {a b : α} :
    orFault faults a = .ok b ↔ faults = [] ∧ a = b := by
  cases faults with
  | nil => simp [orFault]
  | cons fault faults => simp [orFault]

theorem orFault_eq_error {faults : List ε} {a : α} {e : ε} :
    orFault faults a = .error e ↔ faults.head? = some e := by
  cases faults with
  | nil => simp [orFault]
  | cons fault faults => simp [orFault]

/-- Of a row of computations the first fault of all is reported. -/
theorem mapM_orFault {f : α → Except ε β} {faults : α → List ε} {g : α → β} {l : List α}
    (h : ∀ a ∈ l, f a = orFault (faults a) (g a)) :
    l.mapM f = orFault (l.flatMap faults) (l.map g) := by
  induction l with
  | nil => rfl
  | cons a l ih =>
      rw [List.mapM_cons, h a List.mem_cons_self, List.flatMap_cons, List.map_cons]
      refine orFault_bind _ _ _ ?_
      rw [ih fun b hb => h b (List.mem_cons_of_mem a hb)]
      cases l.flatMap faults <;> rfl

end Faults

namespace Descriptor

/-! ## Leaves -/

/-- An innermost bucket, or the whole response where there are no levels. -/
structure Leaf where
  /-- The bucket and those around it, outermost first, each with the key of its level. -/
  path : List (String × Bucket)
  results : Results
  count : Nat

/-- A leaf below one more bucket. -/
def Leaf.below (key : String) (bucket : Bucket) (leaf : Leaf) : Leaf :=
  { leaf with path := (key, bucket) :: leaf.path }

/-- The buckets of a level; none if there is no such level. -/
def bucketsAt (key : String) (results : Results) : List Bucket :=
  match results.lookup key with
  | some (.buckets buckets) => buckets
  | _ => []

/-- The leaves below the levels `keys`, depth first. -/
def leaves : List String → Results → Nat → List Leaf
  | [], results, count => [⟨[], results, count⟩]
  | key :: keys, results, _ =>
    (bucketsAt key results).flatMap fun bucket =>
      (leaves keys bucket.sub bucket.count).map (Leaf.below key bucket)

/-- What the rows below a bucket have under the key of its level. A time bucket has the time it
starts at. -/
def keyOf (timeBucketed : Bool) (key : String) (bucket : Bucket) : Json :=
  if isTimeLevel timeBucketed key then
    match timeOfBucket bucket with
    | .ok m => .text m.format
    | .error _ => .null
  else bucket.key

namespace Leaf

/-- The keys on the way to a leaf. -/
def keys (leaf : Leaf) (timeBucketed : Bool) : List (String × Json) :=
  leaf.path.map fun (key, bucket) => (key, keyOf timeBucketed key bucket)

/-- The values that are no buckets. -/
def values (leaf : Leaf) : List (String × Json) :=
  leaf.results.filterMap fun (name, result) =>
    match result with
    | .value v => some (name, v)
    | .buckets _ => none

/-- What the row of a leaf has under a name: the key of that level, else null for a field that is no
longer grouped by, else the count, else the value of that name. -/
def entry (leaf : Leaf) (d : Descriptor) (timeBucketed : Bool) (name : String) : Option Json :=
  ((leaf.keys timeBucketed).reverse.lookup name).or <|
    (if name ∈ d.emptyFields then some .null else none).or <|
      (if d.countField = some name then some (.nat leaf.count) else none).or <|
        leaf.values.reverse.lookup name

/-- Whether a leaf gets a row: an empty time bucket of a group does not. -/
def kept (leaf : Leaf) (d : Descriptor) (timeBucketed : Bool) : Bool :=
  !(timeBucketed && d.isGrouped && leaf.count = 0)

end Leaf

theorem lookup_nulls (fields : List String) (name : String) :
    ((fields.map fun field => (field, Json.null)).reverse).lookup name =
      if name ∈ fields then some .null else none := by
  rw [← List.map_reverse]
  simp only [← @List.mem_reverse _ _ fields]
  induction fields.reverse with
  | nil => rfl
  | cons field fields ih =>
      rw [List.map_cons, List.lookup_cons, ih]
      by_cases h : name = field
      · simp [h]
      · simp [h, beq_false_of_ne h]

theorem lookup_counts (field : Option String) (count : Json) (name : String) :
    ((field.map fun field => (field, count)).toList.reverse).lookup name =
      if field = some name then some count else none := by
  cases field with
  | none => rfl
  | some field =>
      by_cases h : name = field
      · simp [h]
      · simp [h, Ne.symm h]

theorem get?_leafRow (d : Descriptor) (leaf : Leaf) (timeBucketed : Bool) (name : String) :
    Members.get? name (d.leafRow leaf.results leaf.count (leaf.keys timeBucketed)) =
      leaf.entry d timeBucketed name := by
  simp only [leafRow, Members.get?_ofList, List.reverse_append, List.lookup_append, lookup_nulls,
    lookup_counts]
  rfl

/-! ## Faults -/

/-- What is wrong with the key of a bucket. -/
def keyFaults (timeBucketed : Bool) (key : String) (bucket : Bucket) : List RowsError :=
  if isTimeLevel timeBucketed key then
    match timeOfBucket bucket with
    | .ok _ => []
    | .error cause => [.timeKey cause]
  else []

/-- The faults of the levels `keys`, depth first, that of a bucket's own key before those below. -/
def faults (timeBucketed : Bool) : List String → Results → List RowsError
  | [], _ => []
  | key :: keys, results =>
    match results.lookup key with
    | none => [.levelMissing key]
    | some (.value _) => [.levelIsValue key]
    | some (.buckets []) => if isTimeLevel timeBucketed key then [] else [.fieldUnknown key]
    | some (.buckets buckets) =>
      buckets.flatMap fun bucket => keyFaults timeBucketed key bucket ++
        faults timeBucketed keys bucket.sub

theorem bucketKey_eq (timeBucketed : Bool) (key : String) (bucket : Bucket) :
    bucketKey timeBucketed key bucket =
      orFault (keyFaults timeBucketed key bucket) (keyOf timeBucketed key bucket) := by
  rw [bucketKey, keyFaults, keyOf]
  split
  · cases timeOfBucket bucket <;> rfl
  · rfl

/-- The rows of leaves, under the keys that `path` has. -/
def rowsFor (d : Descriptor) (timeBucketed : Bool) (path : List (String × Json))
    (leaves : List Leaf) : List Members :=
  (leaves.filter fun leaf => leaf.kept d timeBucketed).map fun leaf =>
    d.leafRow leaf.results leaf.count (path ++ leaf.keys timeBucketed)

theorem rowsFor_flatMap {α : Type} (d : Descriptor) (timeBucketed : Bool)
    (path : List (String × Json)) (l : List α) (f : α → List Leaf) :
    rowsFor d timeBucketed path (l.flatMap f) =
      (l.map fun a => rowsFor d timeBucketed path (f a)).flatten := by
  rw [rowsFor, List.filter_flatMap, List.map_flatMap, List.flatMap_def]
  rfl

theorem rowsFor_below (d : Descriptor) (timeBucketed : Bool) (path : List (String × Json))
    (key : String) (bucket : Bucket) (leaves : List Leaf) :
    rowsFor d timeBucketed path (leaves.map (Leaf.below key bucket)) =
      rowsFor d timeBucketed (path ++ [(key, keyOf timeBucketed key bucket)]) leaves := by
  simp only [rowsFor, List.filter_map, List.map_map, List.append_assoc]
  rfl

/-- The rows below some levels are those of the leaves, unless there is a fault. -/
theorem rowsBelow_eq (d : Descriptor) (timeBucketed : Bool) (keys : List String) (results : Results)
    (count : Nat) (path : List (String × Json)) :
    rowsBelow d timeBucketed keys results count path =
      orFault (faults timeBucketed keys results)
        (rowsFor d timeBucketed path (leaves keys results count)) := by
  induction keys generalizing results count path with
  | nil =>
      rw [rowsBelow, leaves, faults, rowsFor, List.filter_singleton, Leaf.kept]
      by_cases h : timeBucketed && d.isGrouped && count = 0
      · simp [h, orFault]
      · simp [h, orFault, Leaf.keys]
  | cons key keys ih =>
      rw [rowsBelow, leaves, faults, bucketsAt]
      cases results.lookup key with
      | none => rfl
      | some result =>
          cases result with
          | value v => rfl
          | buckets buckets =>
              cases buckets with
              | nil => cases isTimeLevel timeBucketed key <;> rfl
              | cons first rest =>
                  have hrow : ∀ bucket ∈ first :: rest,
                      (do
                        let value ← bucketKey timeBucketed key bucket
                        rowsBelow d timeBucketed keys bucket.sub bucket.count
                          (path ++ [(key, value)])) =
                      orFault (keyFaults timeBucketed key bucket ++
                          faults timeBucketed keys bucket.sub)
                        (rowsFor d timeBucketed path
                          ((leaves keys bucket.sub bucket.count).map (Leaf.below key bucket))) := by
                    intro bucket _
                    rw [bucketKey_eq, rowsFor_below]
                    exact orFault_bind _ _ _ (ih _ _ _)
                  simp only [mapM_orFault hrow, orFault_map, rowsFor_flatMap]

/-! ## Levels -/

/-- A level that is looked up on the way to the leaves: its key and the results it stands in. -/
inductive Reached : List String → Results → String → Results → Prop where
  | here {key : String} {keys : List String} {results : Results} :
    Reached (key :: keys) results key results
  | inside {key : String} {keys : List String} {results : Results} {bucket : Bucket}
    {reached : String} {node : Results} (hmem : bucket ∈ bucketsAt key results)
    (h : Reached keys bucket.sub reached node) : Reached (key :: keys) results reached node

/-- A level as it should be: it has buckets, though the level of time may do without, and its buckets
have times where they are due. -/
def Sound (timeBucketed : Bool) (key : String) (node : Results) : Prop :=
  ∃ buckets, node.lookup key = some (.buckets buckets) ∧
    (buckets = [] → isTimeLevel timeBucketed key = true) ∧
    ∀ bucket ∈ buckets, isTimeLevel timeBucketed key = true → ∃ m, timeOfBucket bucket = .ok m

/-- The faults of one level. -/
def faultsAt (timeBucketed : Bool) (key : String) (node : Results) : List RowsError :=
  match node.lookup key with
  | none => [.levelMissing key]
  | some (.value _) => [.levelIsValue key]
  | some (.buckets []) => if isTimeLevel timeBucketed key then [] else [.fieldUnknown key]
  | some (.buckets buckets) => buckets.flatMap (keyFaults timeBucketed key)

section Levels

variable {timeBucketed : Bool} {key : String} {keys : List String} {results node : Results}
  {e : RowsError}

theorem mem_faults_cons :
    e ∈ faults timeBucketed (key :: keys) results ↔
      e ∈ faultsAt timeBucketed key results ∨
        ∃ bucket ∈ bucketsAt key results, e ∈ faults timeBucketed keys bucket.sub := by
  rw [faults, faultsAt, bucketsAt]
  cases results.lookup key with
  | none => simp
  | some result =>
      cases result with
      | value v => simp
      | buckets buckets =>
          cases buckets with
          | nil => simp
          | cons first rest =>
              simp only [List.mem_flatMap, List.mem_append]
              constructor
              · rintro ⟨bucket, hbucket, hkey | hbelow⟩
                · exact .inl ⟨bucket, hbucket, hkey⟩
                · exact .inr ⟨bucket, hbucket, hbelow⟩
              · rintro (⟨bucket, hbucket, hkey⟩ | ⟨bucket, hbucket, hbelow⟩)
                · exact ⟨bucket, hbucket, .inl hkey⟩
                · exact ⟨bucket, hbucket, .inr hbelow⟩

/-- The faults are those of the levels that are looked up. -/
theorem mem_faults :
    e ∈ faults timeBucketed keys results ↔
      ∃ key node, Reached keys results key node ∧ e ∈ faultsAt timeBucketed key node := by
  induction keys generalizing results with
  | nil => exact ⟨nofun, fun ⟨_, _, h, _⟩ => nomatch h⟩
  | cons key keys ih =>
      rw [mem_faults_cons]
      constructor
      · rintro (hhere | ⟨bucket, hbucket, hbelow⟩)
        · exact ⟨key, results, .here, hhere⟩
        · obtain ⟨key', node, hreached, hfault⟩ := ih.mp hbelow
          exact ⟨key', node, .inside hbucket hreached, hfault⟩
      · rintro ⟨key', node, hreached, hfault⟩
        cases hreached with
        | here => exact .inl hfault
        | inside hbucket hreached =>
            exact .inr ⟨_, hbucket, ih.mpr ⟨key', node, hreached, hfault⟩⟩

theorem keyFaults_eq_nil {bucket : Bucket} :
    keyFaults timeBucketed key bucket = [] ↔
      (isTimeLevel timeBucketed key = true → ∃ m, timeOfBucket bucket = .ok m) := by
  rw [keyFaults]
  cases isTimeLevel timeBucketed key with
  | false => simp
  | true => cases timeOfBucket bucket <;> simp

theorem faultsAt_eq_nil :
    faultsAt timeBucketed key node = [] ↔ Sound timeBucketed key node := by
  rw [faultsAt, Sound]
  cases node.lookup key with
  | none => simp
  | some result =>
      cases result with
      | value v => simp
      | buckets buckets =>
          cases buckets with
          | nil => simp
          | cons first rest => simp [List.flatMap_eq_nil_iff, keyFaults_eq_nil]

theorem faults_eq_nil :
    faults timeBucketed keys results = [] ↔
      ∀ key node, Reached keys results key node → Sound timeBucketed key node := by
  rw [List.eq_nil_iff_forall_not_mem]
  constructor
  · intro h key node hreached
    rw [← faultsAt_eq_nil, List.eq_nil_iff_forall_not_mem]
    exact fun e hfault => h e (mem_faults.mpr ⟨key, node, hreached, hfault⟩)
  · intro h e hfault
    obtain ⟨key, node, hreached, hfault⟩ := mem_faults.mp hfault
    rw [faultsAt_eq_nil.mpr (h key node hreached)] at hfault
    cases hfault

theorem fieldUnknown_mem_faultsAt {field : String} :
    .fieldUnknown field ∈ faultsAt timeBucketed key node ↔
      field = key ∧ node.lookup key = some (.buckets []) ∧ isTimeLevel timeBucketed key = false := by
  rw [faultsAt]
  cases node.lookup key with
  | none => simp
  | some result =>
      cases result with
      | value v => simp
      | buckets buckets =>
          cases buckets with
          | nil => cases isTimeLevel timeBucketed key <;> simp
          | cons first rest =>
              have hkeys : ∀ bucket, .fieldUnknown field ∉ keyFaults timeBucketed key bucket := by
                intro bucket
                rw [keyFaults]
                cases isTimeLevel timeBucketed key with
                | false => simp
                | true => cases timeOfBucket bucket <;> simp
              simp [hkeys]

end Levels

/-! ## Order -/

/-- Where a row stands in the order of time: before all times if it has none that can be read. -/
def timeRank (row : Members) : WithBot Int :=
  ((Members.get? timeKey row).bind Moment.ofStored?).map Moment.nanos

theorem sortByTime_eq (rows : List Members) :
    sortByTime rows =
      if rows.any (Members.contains timeKey) then
        rows.mergeSort fun a b => timeRank a ≤ timeRank b
      else rows := by
  unfold sortByTime
  split
  · dsimp only
    rw [List.map_mergeSort (s := fun a b => decide (timeRank a ≤ timeRank b))]
    · rw [List.map_map]
      exact congrArg (List.mergeSort · _) (List.map_id rows)
    · intro a ha b hb
      obtain ⟨row, -, rfl⟩ := List.mem_map.mp ha
      obtain ⟨other, -, rfl⟩ := List.mem_map.mp hb
      dsimp only
      cases hrow : ((Members.get? timeKey row).bind Moment.ofStored?).map Moment.nanos with
      | none =>
          have hbot : timeRank row = ⊥ := hrow
          simp [hbot]
      | some nanos =>
          have hcoe : timeRank row = (nanos : WithBot Int) := hrow
          cases hother : ((Members.get? timeKey other).bind Moment.ofStored?).map Moment.nanos with
          | none =>
              have hbot : timeRank other = ⊥ := hother
              simp [hcoe, hbot]
          | some nanos' =>
              have hcoe' : timeRank other = (nanos' : WithBot Int) := hother
              simp [hcoe, hcoe']
  · rfl

/-- Rows in the order of time, those of one time as they were. -/
structure InTimeOrder (rows sorted : List Members) : Prop where
  perm : sorted.Perm rows
  ascending : sorted.Pairwise fun a b => timeRank a ≤ timeRank b
  ties : ∀ rank, sorted.filter (timeRank · = rank) = rows.filter (timeRank · = rank)

theorem inTimeOrder_sortByTime {rows : List Members}
    (h : rows.any (Members.contains timeKey) = true) : InTimeOrder rows (sortByTime rows) := by
  have htrans : ∀ a b c : Members, decide (timeRank a ≤ timeRank b) = true →
      decide (timeRank b ≤ timeRank c) = true → decide (timeRank a ≤ timeRank c) = true := by
    intro a b c hab hbc
    exact decide_eq_true (le_trans (of_decide_eq_true hab) (of_decide_eq_true hbc))
  have htotal : ∀ a b : Members,
      (decide (timeRank a ≤ timeRank b) || decide (timeRank b ≤ timeRank a)) = true := by
    intro a b
    simpa using le_total (timeRank a) (timeRank b)
  rw [sortByTime_eq, if_pos h]
  refine ⟨List.mergeSort_perm _ _, ?_, fun rank => ?_⟩
  · exact (List.pairwise_mergeSort htrans htotal rows).imp of_decide_eq_true
  · refine Sorting.filter_mergeSort htrans htotal (fun a b ha hb => ?_) rows
    simp only [decide_eq_true_eq] at ha hb ⊢
    rw [ha, hb]

theorem sortByTime_singleton (row : Members) : sortByTime [row] = [row] :=
  sortByTime_of_same (Members.get? timeKey row) fun _ h => by rw [List.mem_singleton.mp h]

/-! ## Responses -/

/-- Whether the tree has a level of time buckets. -/
def timeBucketed (d : Descriptor) : Bool := Tree.hasHistogram d.tree

/-- The keys of the levels, outermost first. -/
def levelKeys (d : Descriptor) : List String :=
  d.grouping ++ if d.timeBucketed then [timeKey] else []

/-- The leaves of a response. -/
def leavesOf (d : Descriptor) (response : Response) : List Leaf :=
  leaves d.levelKeys response.aggregations response.total

/-- The faults of a response, in the order in which they are met. -/
def faultsOf (d : Descriptor) (response : Response) : List RowsError :=
  faults d.timeBucketed d.levelKeys response.aggregations

/-- Whether a row has just what it should have of a leaf. -/
def Shows (d : Descriptor) (leaf : Leaf) (row : Members) : Prop :=
  ∀ name, Members.get? name row = leaf.entry d d.timeBucketed name

theorem rowsOf_eq (d : Descriptor) (response : Response) :
    d.rowsOf response = orFault (d.faultsOf response)
      (sortByTime (rowsFor d d.timeBucketed [] (d.leavesOf response))) := by
  have hrows := rowsBelow_eq d d.timeBucketed d.levelKeys response.aggregations response.total []
  exact (congrArg (· >>= fun rows => pure (sortByTime rows)) hrows).trans (orFault_map _ _ _)

theorem forall₂_shows (d : Descriptor) (leaves : List Leaf) :
    List.Forall₂ d.Shows (leaves.filter fun leaf => leaf.kept d d.timeBucketed)
      (rowsFor d d.timeBucketed [] leaves) := by
  rw [rowsFor, List.forall₂_map_right_iff]
  exact List.forall₂_same.mpr fun leaf _ => d.get?_leafRow leaf d.timeBucketed

/-- A response without levels has the one row of its values and total. One with levels, each as it
should be, has a row for each leaf in turn, but for empty time buckets of groups, and then in the
order of time. Any other has the first of its faults, which is an unknown field exactly where a level
other than that of time has no buckets. -/
theorem rowsOf_flattens (d : Descriptor) (response : Response) :
    (d.levelKeys = [] → ∃ row, d.rowsOf response = .ok [row] ∧
      d.Shows ⟨[], response.aggregations, response.total⟩ row) ∧
    (d.levelKeys ≠ [] →
      (∀ key node, Reached d.levelKeys response.aggregations key node →
        Sound d.timeBucketed key node) →
      ∃ rows sorted, d.rowsOf response = .ok sorted ∧
        List.Forall₂ d.Shows
          ((d.leavesOf response).filter fun leaf => leaf.kept d d.timeBucketed) rows ∧
        if rows.any (Members.contains timeKey) then InTimeOrder rows sorted else sorted = rows) ∧
    (∀ e, d.rowsOf response = .error e ↔ (d.faultsOf response).head? = some e) ∧
    (d.faultsOf response = [] ↔ ∀ key node, Reached d.levelKeys response.aggregations key node →
      Sound d.timeBucketed key node) ∧
    ∀ field, .fieldUnknown field ∈ d.faultsOf response ↔
      ∃ node, Reached d.levelKeys response.aggregations field node ∧
        node.lookup field = some (.buckets []) ∧ isTimeLevel d.timeBucketed field = false := by
  refine ⟨fun hkeys => ?_, fun _ hsound => ?_, fun e => ?_, faults_eq_nil, fun field => ?_⟩
  · have htime : d.timeBucketed = false := by
      by_contra h
      simp [levelKeys, h] at hkeys
    have hkept : (d.leavesOf response).filter (fun leaf => leaf.kept d d.timeBucketed) =
        [⟨[], response.aggregations, response.total⟩] := by
      rw [leavesOf, hkeys, leaves, List.filter_singleton, Leaf.kept, htime]
      rfl
    have hfaults : d.faultsOf response = [] := by rw [faultsOf, hkeys, faults]
    have hshows := d.forall₂_shows (d.leavesOf response)
    rw [hkept] at hshows
    obtain ⟨row, rest, hrow, hrest, hrows⟩ := List.forall₂_cons_left_iff.mp hshows
    cases List.forall₂_nil_left_iff.mp hrest
    refine ⟨row, ?_, hrow⟩
    rw [rowsOf_eq, hfaults, hrows, sortByTime_singleton, orFault]
  · have hfaults : d.faultsOf response = [] := faults_eq_nil.mpr hsound
    refine ⟨_, _, (rowsOf_eq d response).trans (by rw [hfaults, orFault]), forall₂_shows d _, ?_⟩
    split
    · rename_i htimes
      exact inTimeOrder_sortByTime htimes
    · rename_i htimes
      rw [sortByTime_eq, if_neg htimes]
  · rw [rowsOf_eq]
    exact orFault_eq_error
  · simp only [faultsOf, mem_faults, fieldUnknown_mem_faultsAt]
    constructor
    · rintro ⟨key, node, hreached, rfl, hnone, htime⟩
      exact ⟨node, hreached, hnone, htime⟩
    · rintro ⟨node, hreached, hnone, htime⟩
      exact ⟨field, node, hreached, rfl, hnone, htime⟩

/-- Two hosts, one of them with a window without documents. -/
theorem rowsOf_flattens_hosts :
    let d : Descriptor := ⟨[("host", .object [("terms", .null), ("aggregations",
      .object [("time", .object [("date_histogram", .null)])])])], some "n", [], ["host"], none, none,
      ["code"]⟩
    let window := fun (start : Int) (count : Nat) => Bucket.mk (.int start) none count []
    let response : Response := ⟨3, [], [("host", .buckets
      [.mk (.text "a") none 2 [("time", .buckets [window 0 0, window 60000 2])],
        .mk (.text "b") none 1 [("time", .buckets [window 0 1])]])]⟩
    d.levelKeys ≠ [] ∧
      (∀ key node, Reached d.levelKeys response.aggregations key node →
        Sound d.timeBucketed key node) ∧
      ∃ rows sorted, d.rowsOf response = .ok sorted ∧
        List.Forall₂ d.Shows
          ((d.leavesOf response).filter fun leaf => leaf.kept d d.timeBucketed) rows ∧
        if rows.any (Members.contains timeKey) then InTimeOrder rows sorted else sorted = rows := by
  intro d window response
  have hkeys : d.levelKeys ≠ [] := by decide
  have hsound : ∀ key node, Reached d.levelKeys response.aggregations key node →
      Sound d.timeBucketed key node := faults_eq_nil.mp (by cbv)
  exact ⟨hkeys, hsound, (rowsOf_flattens d response).2.1 hkeys hsound⟩

end Descriptor
end Sluice
