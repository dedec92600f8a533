import RedVector.Rvf2.Prefetch
import RedVector.Util.Loops

/-!
# Matching fetched ranges with requests

What is found for a request depends on the ranges of all segments, since the
fetched ranges are kept by their offset alone.
-/

namespace RedVector.Rvf2

open Effect Util

/-! ## Tasks -/

section Tasks

variable {α β : Type}

/-- What is in a place after some tasks have completed. -/
theorem foldl_set (outputs : List α) (order : List Nat)
    (places : List (Option α)) (place : Nat) :
    (order.foldl (fun places task => places.set task outputs[task]?)
        places)[place]? =
      if place ∈ order then places[place]?.map fun _ => outputs[place]?
      else places[place]? := by
  induction order generalizing places with
  | nil => simp
  | cons task order ih =>
      rw [List.foldl_cons, ih, List.getElem?_set]
      by_cases same : task = place
      · subst same
        by_cases inside : task < places.length
        · simp [inside]
        · simp [inside]
      · simp [same, Ne.symm same]

theorem mapM_id_pure {m : Type → Type} [Monad m] [LawfulMonad m]
    (values : List α) : (values.map pure).mapM id = (pure values : m _) := by
  rw [List.mapM_map]
  exact (List.mapM_pure).trans (congrArg pure (List.map_id' values))

/-- The results do not depend on the order in which the tasks complete. -/
theorem joinAll_eq (completion : Completion) (outputs : List α) :
    joinAll completion outputs = some outputs := by
  have places : (completion.order outputs.length).foldl
      (fun places task => places.set task outputs[task]?)
      (outputs.map fun _ => none) = outputs.map pure := by
    apply List.ext_getElem?
    intro place
    have completes : place ∈ completion.order outputs.length ↔
        place < outputs.length := by
      rw [(completion.complete outputs.length).mem_iff, List.mem_range]
    rw [foldl_set, List.getElem?_map, List.getElem?_map]
    by_cases inside : place < outputs.length
    · rw [if_pos (completes.mpr inside), List.getElem?_eq_getElem inside]
      rfl
    · rw [if_neg (mt completes.mp inside),
        List.getElem?_eq_none (Nat.le_of_not_lt inside)]
      rfl
  unfold joinAll
  rw [places]
  exact mapM_id_pure outputs

/-- A list is mapped where nothing is left out. -/
theorem filterMap_eq_map_iff {partly : α → Option β} {result : α → β}
    {values : List α} :
    values.filterMap partly = values.map result ↔
      ∀ value ∈ values, partly value = some (result value) := by
  constructor
  · intro same
    induction values with
    | nil => exact nofun
    | cons value rest ih =>
        cases computes : partly value with
        | none =>
            rw [List.filterMap_cons_none computes] at same
            have shorter := List.length_filterMap_le partly rest
            have lengths := congrArg List.length same
            rw [List.length_map, List.length_cons] at lengths
            omega
        | some found =>
            rw [List.filterMap_cons_some computes, List.map_cons] at same
            obtain ⟨rfl, others⟩ := List.cons.inj same
            exact List.forall_mem_cons.mpr ⟨computes, ih others⟩
  · intro all
    rw [← List.filterMap_eq_map]
    exact List.filterMap_congr all

end Tasks

/-! ## Segments -/

variable {requests : List FetchRequest}

/-- The requests of one segment. -/
def requestsOf (requests : List FetchRequest) (segmentId : UInt32) :
    List FetchRequest :=
  requests.filter fun req => req.segmentId = segmentId

def segmentIds (requests : List FetchRequest) : Finset UInt32 :=
  (requests.map FetchRequest.segmentId).toFinset

theorem mem_segmentIds {segmentId : UInt32} :
    segmentId ∈ segmentIds requests ↔
      requestsOf requests segmentId ≠ [] := by
  unfold segmentIds requestsOf
  rw [List.mem_toFinset, List.mem_map, ne_eq, List.filter_eq_nil_iff]
  simp

theorem lookup_bySegment (requests : List FetchRequest)
    (segmentId : UInt32) :
    (PrefetchCoordinator.bySegment requests).lookup segmentId =
      if requestsOf requests segmentId = [] then none
      else some (requestsOf requests segmentId) := by
  induction requests using List.reverseRecOn with
  | nil => rfl
  | append_singleton front req ih =>
      have step : PrefetchCoordinator.bySegment (front ++ [req]) =
          (PrefetchCoordinator.bySegment front).insert req.segmentId
            (((PrefetchCoordinator.bySegment front).lookup
              req.segmentId).getD [] ++ [req]) := by
        unfold PrefetchCoordinator.bySegment
        rw [List.foldl_append]
        rfl
      rw [step, lookup_insert]
      unfold requestsOf at ih ⊢
      rw [List.filter_append]
      split
      · rename_i same
        subst same
        rw [ih]
        split
        · rename_i empty
          simp [empty]
        · simp
      · rename_i different
        simp [ih, Ne.symm different]

theorem entries_bySegment (segments : Listing UInt32)
    (requests : List FetchRequest) :
    segments.entries (PrefetchCoordinator.bySegment requests) =
      (segments.order (segmentIds requests)).map fun segmentId =>
        (segmentId, requestsOf requests segmentId) := by
  have keys : (PrefetchCoordinator.bySegment requests).keys =
      segmentIds requests := by
    ext segmentId
    rw [Finmap.mem_keys, Finmap.mem_iff, mem_segmentIds, lookup_bySegment]
    split
    · rename_i empty
      simp [empty]
    · rename_i some
      simp [some]
  unfold Listing.entries
  rw [keys, ← List.filterMap_eq_map]
  apply List.filterMap_congr
  intro segmentId member
  rw [segments.mem_order, mem_segmentIds] at member
  rw [lookup_bySegment, if_neg member]
  rfl

theorem coalesced_nil (threshold : UInt64) : coalesced threshold [] = [] := by
  unfold coalesced sortedByOffset
  rw [List.mergeSort_nil]
  rfl

/-- The ranges of the segments, in an order of the segments. -/
def rangesOf (threshold : UInt64) (segments : Listing UInt32)
    (requests : List FetchRequest) : List (UInt32 × CoalescedRange) :=
  (segments.order (segmentIds requests)).flatMap fun segmentId =>
    (coalesced threshold (requestsOf requests segmentId)).map fun range =>
      (segmentId, range)

theorem mem_rangesOf {threshold : UInt64} {segments : Listing UInt32}
    {segmentId : UInt32} {range : CoalescedRange} :
    (segmentId, range) ∈ rangesOf threshold segments requests ↔
      range ∈ coalesced threshold (requestsOf requests segmentId) := by
  unfold rangesOf
  rw [List.mem_flatMap]
  constructor
  · rintro ⟨other, -, member⟩
    obtain ⟨found, among, same⟩ := List.mem_map.mp member
    cases same
    exact among
  · intro among
    refine ⟨segmentId, ?_, List.mem_map.mpr ⟨range, among, rfl⟩⟩
    rw [segments.mem_order, mem_segmentIds]
    intro none
    rw [none, coalesced_nil] at among
    cases among

variable {coordinator : PrefetchCoordinator}

/-- Without an overflow there is a task for every range. -/
theorem fetchTasks_of {platform : Platform} (segments : Listing UInt32)
    (fits : ∀ segmentId, ThresholdFits coordinator.coalesceThreshold
      (requestsOf requests segmentId)) :
    @PrefetchCoordinator.fetchTasks platform coordinator segments requests =
      some ((rangesOf coordinator.coalesceThreshold segments requests).map
        fun entry =>
          { key := coordinator.segmentKey entry.1, range := entry.2 }) := by
  unfold PrefetchCoordinator.fetchTasks rangesOf
  rw [entries_bySegment, List.mapM_map]
  rw [mapM_of_forall (fun segmentId _ => by
    dsimp only [Function.comp]
    rw [coalesceRanges_of (fits segmentId)]
    rfl)]
  rw [Option.bind_eq_bind, Option.bind_some, List.map_flatMap,
    List.flatMap_def]
  simp only [List.map_map, Function.comp_def]
  rfl

/-- With overflow checks there are tasks only without an overflow. -/
theorem fits_of_fetchTasks [platform : Platform] {segments : Listing UInt32}
    {tasks : List FetchTask}
    (computed : @PrefetchCoordinator.fetchTasks (platform.built true)
      coordinator segments requests = some tasks) (segmentId : UInt32) :
    ThresholdFits coordinator.coalesceThreshold
      (requestsOf requests segmentId) := by
  unfold PrefetchCoordinator.fetchTasks at computed
  obtain ⟨ranges, computed, -⟩ := Option.bind_eq_some_iff.mp computed
  rw [entries_bySegment, List.mapM_map] at computed
  by_cases none : requestsOf requests segmentId = []
  · intro req member
    unfold sortedByOffset at member
    rw [none, List.mergeSort_nil] at member
    cases member
  · have listed : segmentId ∈ segments.order (segmentIds requests) := by
      rw [segments.mem_order, mem_segmentIds]
      exact none
    obtain ⟨tasks, coalesces⟩ := computes_of_mapM computed segmentId listed
    obtain ⟨found, coalesces, -⟩ := Option.bind_eq_some_iff.mp coalesces
    exact fits_of_coalesceRanges coalesces

/-! ## Bytes -/

/-- The bytes of a segment that a request would get. -/
def bytesAt (coordinator : PrefetchCoordinator) (segmentId : UInt32)
    (req : FetchRequest) : Bytes :=
  (((coordinator.objectStore.lookup (coordinator.segmentKey segmentId)).getD
    []).drop req.start).take req.len.toNat

/-- The document that a request asks for. -/
def answerTo (coordinator : PrefetchCoordinator) (req : FetchRequest) :
    FetchedDoc where
  docId := req.docId
  data := bytesAt coordinator req.segmentId req

/-- The bytes of a request lie inside its segment. -/
def LiesInside (coordinator : PrefetchCoordinator) (req : FetchRequest) :
    Prop :=
  ∃ bytes, coordinator.objectStore.lookup
      (coordinator.segmentKey req.segmentId) = some bytes ∧
    req.stop ≤ bytes.length

/-- The bytes of a range. -/
def rangeBytes (coordinator : PrefetchCoordinator)
    (entry : UInt32 × CoalescedRange) : Bytes :=
  (((coordinator.objectStore.lookup (coordinator.segmentKey entry.1)).getD
    []).drop entry.2.offset).take entry.2.len

variable {segmentId : UInt32} {range : CoalescedRange} {req : FetchRequest}

/-- Ranges lie inside their segments as the requests do. -/
theorem range_inside
    (inside : ∀ req ∈ requests, LiesInside coordinator req)
    (member : range ∈ coalesced coordinator.coalesceThreshold
      (requestsOf requests segmentId)) :
    ∃ bytes, coordinator.objectStore.lookup
        (coordinator.segmentKey segmentId) = some bytes ∧
      range.stop ≤ bytes.length := by
  obtain ⟨req, among, stops⟩ := coalesced_stop member
  obtain ⟨asked, same⟩ := List.mem_filter.mp among
  rw [decide_eq_true_eq] at same
  obtain ⟨bytes, found, fits⟩ := inside req asked
  rw [same] at found
  exact ⟨bytes, found, stops ▸ fits⟩

theorem fetch_of
    (inside : ∀ req ∈ requests, LiesInside coordinator req)
    (member : range ∈ coalesced coordinator.coalesceThreshold
      (requestsOf requests segmentId)) :
    coordinator.fetch
        { key := coordinator.segmentKey segmentId, range := range } =
      .ok (range.offset, rangeBytes coordinator (segmentId, range)) := by
  obtain ⟨bytes, found, fits⟩ := range_inside inside member
  have within : range.offset + range.len ≤ bytes.length := fits
  unfold PrefetchCoordinator.fetch getRange rangeBytes
  simp only [found, if_pos within, Option.getD_some]
  rfl

theorem rangeBytes_length
    (inside : ∀ req ∈ requests, LiesInside coordinator req)
    (member : range ∈ coalesced coordinator.coalesceThreshold
      (requestsOf requests segmentId)) :
    (rangeBytes coordinator (segmentId, range)).length = range.len := by
  obtain ⟨bytes, found, fits⟩ := range_inside inside member
  have within : range.offset + range.len ≤ bytes.length := fits
  unfold rangeBytes
  rw [found, Option.getD_some, List.length_take, List.length_drop]
  show min range.len (bytes.length - range.offset) = range.len
  omega

/-- The bytes of a request are the same in the segment and in a range that
holds them. -/
theorem slice_rangeBytes (held : range.holds req = true) :
    ((rangeBytes coordinator (segmentId, range)).drop
        (req.start - range.offset)).take req.len.toNat =
      bytesAt coordinator segmentId req := by
  unfold CoalescedRange.holds CoalescedRange.stop FetchRequest.stop at held
  simp only [Bool.and_eq_true, decide_eq_true_eq] at held
  unfold rangeBytes bytesAt
  rw [List.drop_take, List.take_take, List.drop_drop,
    show range.offset + (req.start - range.offset) = req.start by omega,
    show min req.len.toNat (range.len - (req.start - range.offset)) =
      req.len.toNat by omega]

/-! ## What is found -/

/-- The ranges that are kept: of those that start at one offset, the last. -/
def Keeps (entries : List (UInt32 × CoalescedRange))
    (entry : UInt32 × CoalescedRange) : Prop :=
  ∃ before after, entries = before ++ entry :: after ∧
    ∀ later ∈ after, later.2.offset ≠ entry.2.offset

/-- What the prefetching of requests is right for.  The threshold does not
overflow, the tasks run, and whatever is found for a request has its bytes. -/
structure Prefetchable (coordinator : PrefetchCoordinator)
    (requests : List FetchRequest) : Prop where
  fits : ∀ segmentId, ThresholdFits coordinator.coalesceThreshold
    (requestsOf requests segmentId)
  permits : requests ≠ [] → semaphorePasses coordinator.maxConcurrency = true
  /-- A range of any segment that holds a request has the same bytes there. -/
  alike : ∀ req ∈ requests, ∀ segmentId,
    ∀ range ∈ coalesced coordinator.coalesceThreshold
      (requestsOf requests segmentId), range.holds req = true →
    bytesAt coordinator segmentId req =
      bytesAt coordinator req.segmentId req
  /-- In any order of the segments some range that is kept holds a request. -/
  kept : ∀ segments : Listing UInt32, ∀ req ∈ requests, ∃ entry,
    Keeps (rangesOf coordinator.coalesceThreshold segments requests) entry ∧
      entry.2.holds req = true

/-- The fetched ranges by their offsets. -/
def fetchedRanges (coordinator : PrefetchCoordinator)
    (segments : Listing UInt32) (requests : List FetchRequest) :
    HashMap Nat Bytes :=
  insertAll ∅ ((rangesOf coordinator.coalesceThreshold segments
    requests).map fun entry =>
      (entry.2.offset, rangeBytes coordinator entry))

theorem lookup_fetchedRanges {segments : Listing UInt32} {offset : Nat}
    {data : Bytes} :
    (fetchedRanges coordinator segments requests).lookup offset =
        some data ↔
      ∃ entry, Keeps (rangesOf coordinator.coalesceThreshold segments
        requests) entry ∧ entry.2.offset = offset ∧
          rangeBytes coordinator entry = data := by
  unfold fetchedRanges
  rw [lookup_insertAll_last]
  constructor
  · rintro ⟨before, after, two, last⟩
    obtain ⟨front, back, isEntries, rfl, second⟩ :=
      List.map_eq_append_iff.mp two
    obtain ⟨entry, others, rfl, isEntry, rfl⟩ :=
      List.map_eq_cons_iff.mp second
    cases isEntry
    refine ⟨entry, ⟨front, others, isEntries, ?_⟩, rfl, rfl⟩
    intro later member same
    apply last
    rw [List.map_map]
    exact List.mem_map.mpr ⟨later, member, same⟩
  · rintro ⟨entry, ⟨before, after, two, last⟩, rfl, rfl⟩
    refine ⟨_, _, by rw [two, List.map_append, List.map_cons], ?_⟩
    rw [List.map_map]
    intro member
    obtain ⟨later, among, same⟩ := List.mem_map.mp member
    exact last later among same

/-- Without an overflow every range is fetched, and the requests are looked up
in what is kept. -/
theorem prefetch_of {platform : Platform} {segments : Listing UInt32}
    {offsets : Listing Nat} {completion : Completion}
    (fits : ∀ segmentId, ThresholdFits coordinator.coalesceThreshold
      (requestsOf requests segmentId))
    (permits : semaphorePasses coordinator.maxConcurrency = true)
    (inside : ∀ req ∈ requests, LiesInside coordinator req)
    (some : requests ≠ []) :
    @PrefetchCoordinator.prefetch platform coordinator segments offsets
        completion requests =
      .some (.ok (requests.filterMap (PrefetchCoordinator.extract
        (offsets.entries (fetchedRanges coordinator segments requests))))) := by
  have fetches : ∀ entry ∈ rangesOf coordinator.coalesceThreshold segments
      requests, coordinator.fetch
        { key := coordinator.segmentKey entry.1, range := entry.2 } =
          pure (entry.2.offset, rangeBytes coordinator entry) :=
    fun entry member => fetch_of inside (mem_rangesOf.mp member)
  have results : ((rangesOf coordinator.coalesceThreshold segments
      requests).map fun entry =>
        ({ key := coordinator.segmentKey entry.1, range := entry.2 } :
          FetchTask)).map coordinator.fetch =
      ((rangesOf coordinator.coalesceThreshold segments requests).map
        fun entry => (entry.2.offset, rangeBytes coordinator entry)).map
          pure := by
    rw [List.map_map, List.map_map]
    exact List.map_congr_left fetches
  unfold PrefetchCoordinator.prefetch
  rw [if_neg (by simpa using some), fetchTasks_of segments fits,
    Option.bind_eq_bind, Option.bind_some, if_pos permits, results,
    joinAll_eq, Option.bind_eq_bind, Option.bind_some, mapM_id_pure]
  rfl

/-- Whether a fetched range has the bytes of a request. -/
theorem found_iff
    (inside : ∀ req ∈ requests, LiesInside coordinator req)
    (member : range ∈ coalesced coordinator.coalesceThreshold
      (requestsOf requests segmentId)) :
    (decide (range.offset ≤ req.start) && decide (req.stop ≤ range.offset +
      (rangeBytes coordinator (segmentId, range)).length)) =
        range.holds req := by
  rw [rangeBytes_length inside member]
  rfl

theorem Keeps.mem {entries : List (UInt32 × CoalescedRange)}
    {entry : UInt32 × CoalescedRange} (keeps : Keeps entries entry) :
    entry ∈ entries := by
  obtain ⟨before, after, rfl, -⟩ := keeps
  simp

/-- What is found for a request is taken from a range that is kept and holds
it. -/
theorem extract_eq_some {segments : Listing UInt32} {offsets : Listing Nat}
    {doc : FetchedDoc}
    (inside : ∀ req ∈ requests, LiesInside coordinator req)
    (extracted : PrefetchCoordinator.extract (offsets.entries
      (fetchedRanges coordinator segments requests)) req = some doc) :
    ∃ entry, Keeps (rangesOf coordinator.coalesceThreshold segments
        requests) entry ∧ entry.2.holds req = true ∧
      doc =
        { docId := req.docId, data := bytesAt coordinator entry.1 req } := by
  obtain ⟨⟨offset, data⟩, found, rfl⟩ := Option.map_eq_some_iff.mp extracted
  have listed := List.mem_of_find?_eq_some found
  have holds := List.find?_some found
  rw [Listing.mem_entries, lookup_fetchedRanges] at listed
  obtain ⟨⟨segmentId, range⟩, keeps, rfl, rfl⟩ := listed
  have held : range.holds req = true := by
    rw [← found_iff inside (mem_rangesOf.mp keeps.mem)]
    exact holds
  refine ⟨_, keeps, held, ?_⟩
  dsimp only
  rw [slice_rangeBytes held]

/-- Something is found for a request that a kept range holds. -/
theorem extract_isSome {segments : Listing UInt32} {offsets : Listing Nat}
    {entry : UInt32 × CoalescedRange}
    (inside : ∀ req ∈ requests, LiesInside coordinator req)
    (keeps : Keeps (rangesOf coordinator.coalesceThreshold segments requests)
      entry) (held : entry.2.holds req = true) :
    ∃ doc, PrefetchCoordinator.extract (offsets.entries
      (fetchedRanges coordinator segments requests)) req = some doc := by
  have listed : (entry.2.offset, rangeBytes coordinator entry) ∈
      offsets.entries (fetchedRanges coordinator segments requests) := by
    rw [Listing.mem_entries, lookup_fetchedRanges]
    exact ⟨entry, keeps, rfl, rfl⟩
  rw [← found_iff inside (mem_rangesOf.mp keeps.mem)] at held
  apply Option.ne_none_iff_exists'.mp
  intro nothing
  unfold PrefetchCoordinator.extract at nothing
  have misses := List.find?_eq_none.mp (Option.map_eq_none_iff.mp nothing) _
    listed
  exact absurd held misses

/-- Of the ranges of a segment that start where one does, the last holds what
that one holds. -/
theorem exists_last
    (member : range ∈ coalesced coordinator.coalesceThreshold
      (requestsOf requests segmentId)) (held : range.holds req = true) :
    ∃ last before after, coalesced coordinator.coalesceThreshold
        (requestsOf requests segmentId) = before ++ last :: after ∧
      last.offset = range.offset ∧ last.holds req = true ∧
      ∀ later ∈ after, later.offset ≠ last.offset := by
  have separated := coalesced_separated coordinator.coalesceThreshold
    (requestsOf requests segmentId)
  generalize coalesced coordinator.coalesceThreshold
    (requestsOf requests segmentId) = ranges at member separated ⊢
  induction ranges generalizing range with
  | nil => cases member
  | cons first rest ih =>
      obtain ⟨apart, separated⟩ := List.pairwise_cons.mp separated
      by_cases again : ∃ other ∈ rest, other.offset = range.offset ∧
          other.holds req = true
      · obtain ⟨other, among, same, holds⟩ := again
        obtain ⟨last, before, after, rfl, starts, final⟩ :=
          ih holds among separated
        exact ⟨last, first :: before, after, rfl, starts.trans same, final⟩
      · have first : range = first := by
          refine (List.mem_cons.mp member).resolve_right fun later => ?_
          exact again ⟨range, later, rfl, held⟩
        subst first
        refine ⟨range, [], rest, rfl, rfl, held, ?_⟩
        -- A later range with this offset begins where this one ends.
        intro other among starts
        refine again ⟨other, among, starts, ?_⟩
        have gap := apart other among
        unfold CoalescedRange.holds CoalescedRange.stop at held ⊢
        unfold CoalescedRange.stop at gap
        simp only [Bool.and_eq_true, decide_eq_true_eq] at held ⊢
        omega

/-- When its segment comes last, a range of it that holds a request is kept, or
another one in its place. -/
theorem keeps_withLast
    (member : range ∈ coalesced coordinator.coalesceThreshold
      (requestsOf requests segmentId)) (held : range.holds req = true) :
    ∃ last, Keeps (rangesOf coordinator.coalesceThreshold
        (.withLast segmentId) requests) (segmentId, last) ∧
      last.offset = range.offset ∧ last.holds req = true := by
  obtain ⟨last, before, after, isRanges, starts, holds, final⟩ :=
    exists_last member held
  have among : segmentId ∈ segmentIds requests := by
    rw [mem_segmentIds]
    intro none
    rw [none, coalesced_nil] at member
    cases member
  refine ⟨last, ⟨((segmentIds requests).erase segmentId).toList.flatMap
      (fun segmentId => (coalesced coordinator.coalesceThreshold
        (requestsOf requests segmentId)).map fun range =>
          (segmentId, range)) ++ before.map fun range => (segmentId, range),
    after.map fun range => (segmentId, range), ?_, ?_⟩, starts, holds⟩
  · unfold rangesOf Listing.withLast
    simp only [if_pos among, List.flatMap_append, List.flatMap_singleton,
      isRanges, List.map_append, List.map_cons, List.append_assoc]
  · intro later inAfter
    obtain ⟨range, isLater, rfl⟩ := List.mem_map.mp inAfter
    exact final range isLater

/-- What a segment that comes last has for a request is found when the offset
of its range comes first. -/
theorem extract_withFirst
    (inside : ∀ req ∈ requests, LiesInside coordinator req)
    (member : range ∈ coalesced coordinator.coalesceThreshold
      (requestsOf requests segmentId)) (held : range.holds req = true) :
    PrefetchCoordinator.extract ((Listing.withFirst range.offset).entries
        (fetchedRanges coordinator (.withLast segmentId) requests)) req =
      some { docId := req.docId
             data := bytesAt coordinator segmentId req } := by
  obtain ⟨last, keeps, starts, holds⟩ := keeps_withLast member held
  have found : (fetchedRanges coordinator (.withLast segmentId)
      requests).lookup range.offset =
        some (rangeBytes coordinator (segmentId, last)) := by
    rw [lookup_fetchedRanges]
    exact ⟨_, keeps, starts, rfl⟩
  have among : range.offset ∈ (fetchedRanges coordinator
      (.withLast segmentId) requests).keys := by
    rw [Finmap.mem_keys]
    exact Finmap.mem_of_lookup_eq_some found
  have sees : (decide (range.offset ≤ req.start) && decide (req.stop ≤
      range.offset + (rangeBytes coordinator
        (segmentId, last)).length)) = true := by
    rw [← starts, found_iff inside (mem_rangesOf.mp keeps.mem)]
    exact holds
  unfold PrefetchCoordinator.extract Listing.entries Listing.withFirst
  simp only [if_pos among]
  rw [List.filterMap_cons_some (by rw [found]; rfl), List.find?_cons, sees,
    ← starts]
  dsimp only [Option.map_some]
  rw [slice_rangeBytes holds]

theorem requestsOf_same (same : ∀ req ∈ requests, req.segmentId = segmentId) :
    requestsOf requests segmentId = requests :=
  List.filter_eq_self.mpr fun req asked => decide_eq_true (same req asked)

theorem requestsOf_other {other : UInt32}
    (same : ∀ req ∈ requests, req.segmentId = segmentId)
    (different : other ≠ segmentId) : requestsOf requests other = [] := by
  apply List.filter_eq_nil_iff.mpr
  intro req asked isOther
  exact different ((of_decide_eq_true isOther).symm.trans (same req asked))

/-- The order of one segment. -/
theorem order_same (segments : Listing UInt32) (some : requests ≠ [])
    (same : ∀ req ∈ requests, req.segmentId = segmentId) :
    segments.order (segmentIds requests) = [segmentId] := by
  have only : segmentIds requests = {segmentId} := by
    ext other
    rw [mem_segmentIds, Finset.mem_singleton]
    by_cases isSame : other = segmentId
    · subst isSame
      rw [requestsOf_same same]
      exact iff_of_true some rfl
    · rw [requestsOf_other same isSame]
      exact iff_of_false (fun none => none rfl) isSame
  rw [only]
  refine List.perm_singleton.mp ?_
  refine (List.perm_ext_iff_of_nodup (segments.order_nodup _)
    (List.nodup_singleton segmentId)).mpr fun other => ?_
  rw [segments.mem_order, Finset.mem_singleton, List.mem_singleton]

/-- Requests of one segment are prefetchable when the threshold does not
overflow and the tasks run. -/
theorem prefetchable_of_same
    (same : ∀ req ∈ requests, req.segmentId = segmentId)
    (fits : ThresholdFits coordinator.coalesceThreshold requests)
    (permits : semaphorePasses coordinator.maxConcurrency = true) :
    Prefetchable coordinator requests := by
  refine ⟨?_, fun _ => permits, ?_, ?_⟩
  · intro other
    by_cases isSame : other = segmentId
    · subst isSame
      rw [requestsOf_same same]
      exact fits
    · intro req member
      unfold sortedByOffset at member
      rw [requestsOf_other same isSame, List.mergeSort_nil] at member
      cases member
  · intro req asked other range member _
    by_cases isSame : other = segmentId
    · rw [isSame, same req asked]
    · rw [requestsOf_other same isSame, coalesced_nil] at member
      cases member
  · intro segments req asked
    obtain ⟨range, member, held⟩ :=
      coalesced_holds coordinator.coalesceThreshold asked
    rw [← requestsOf_same same] at member
    obtain ⟨last, before, after, isRanges, -, holds, final⟩ :=
      exists_last member held
    refine ⟨(segmentId, last), ⟨before.map fun range => (segmentId, range),
      after.map fun range => (segmentId, range), ?_, ?_⟩, holds⟩
    · unfold rangesOf
      rw [order_same segments (List.ne_nil_of_mem asked) same,
        List.flatMap_singleton, isRanges, List.map_append, List.map_cons]
    · intro later inAfter
      obtain ⟨range, isLater, rfl⟩ := List.mem_map.mp inAfter
      exact final range isLater

/-- Prefetching answers every request with its own bytes, in both builds and
whatever the orders of the maps and of the tasks, exactly if the requests are
prefetchable. -/
theorem prefetch_iff [Platform] (coordinator : PrefetchCoordinator)
    (requests : List FetchRequest)
    (inside : ∀ req ∈ requests, LiesInside coordinator req) :
    (∀ checks segments offsets completion,
      @PrefetchCoordinator.prefetch (.built checks) coordinator segments
          offsets completion requests =
        some (.ok (requests.map (answerTo coordinator)))) ↔
      Prefetchable coordinator requests := by
  by_cases none : requests = []
  · subst none
    have empty : ∀ segmentId, requestsOf [] segmentId = [] := fun _ => rfl
    refine iff_of_true (fun _ _ _ _ => rfl) ⟨?_, ?_, nofun, nofun⟩
    · intro segmentId req member
      unfold sortedByOffset at member
      rw [empty, List.mergeSort_nil] at member
      cases member
    · exact fun some => absurd rfl some
  constructor
  · intro right
    have ran := right true (.any _) (.any _) ⟨List.range, fun _ => .refl _⟩
    unfold PrefetchCoordinator.prefetch at ran
    rw [if_neg (by simpa using none)] at ran
    obtain ⟨tasks, made, ran⟩ := Option.bind_eq_some_iff.mp ran
    have fits := fits_of_fetchTasks made
    have permits : semaphorePasses coordinator.maxConcurrency = true := by
      by_contra stuck
      rw [if_neg stuck] at ran
      cases ran
    have extracts : ∀ segments offsets, ∀ req ∈ requests,
        PrefetchCoordinator.extract (Listing.entries offsets
          (fetchedRanges coordinator segments requests)) req =
            some (answerTo coordinator req) := by
      intro segments offsets
      have ran := right true segments offsets
        ⟨List.range, fun _ => .refl _⟩
      rw [prefetch_of fits permits inside none] at ran
      exact filterMap_eq_map_iff.mp
        (Except.ok.inj (Option.some.inj ran))
    refine ⟨fits, fun _ => permits, ?_, ?_⟩
    · intro req asked segmentId range member held
      have found := extract_withFirst inside member held
      rw [extracts _ _ req asked] at found
      exact (congrArg FetchedDoc.data (Option.some.inj found)).symm
    · intro segments req asked
      obtain ⟨entry, keeps, holds, -⟩ := extract_eq_some inside
        (extracts segments (.any _) req asked)
      exact ⟨entry, keeps, holds⟩
  · rintro ⟨fits, permits, alike, kept⟩ checks segments offsets completion
    rw [prefetch_of fits (permits none) inside none]
    refine congrArg (fun docs => some (Except.ok docs)) ?_
    apply filterMap_eq_map_iff.mpr
    intro req asked
    obtain ⟨entry, keeps, holds⟩ := kept segments req asked
    obtain ⟨doc, extracted⟩ : ∃ doc, PrefetchCoordinator.extract
        (offsets.entries (fetchedRanges coordinator segments requests)) req =
          some doc :=
      extract_isSome inside keeps holds
    obtain ⟨found, keepsFound, holdsFound, rfl⟩ :=
      extract_eq_some inside extracted
    rw [extracted]
    unfold answerTo
    rw [alike req asked found.1 found.2 (mem_rangesOf.mp keepsFound.mem)
      holdsFound]

section

attribute [local instance] Platform.integral

/-- Two records of one segment. -/
def records : List FetchRequest :=
  [{ docId := 1, segmentId := 0, offset := 0, len := 4 },
    { docId := 2, segmentId := 0, offset := 4, len := 4 }]

def recordStore : PrefetchCoordinator where
  objectStore := (∅ : HashMap Bytes Bytes).insert
    (text "seg/seg_000000.rvf2") (text "abcdwxyz")

theorem lookup_records :
    recordStore.objectStore.lookup (recordStore.segmentKey 0) =
      some (text "abcdwxyz") := by
  have key : recordStore.segmentKey 0 = text "seg/seg_000000.rvf2" := by
    decide
  rw [key]
  exact Finmap.lookup_insert _

theorem records_same : ∀ req ∈ records, req.segmentId = 0 := by
  decide

theorem records_inside : ∀ req ∈ records, LiesInside recordStore req := by
  intro req asked
  refine ⟨text "abcdwxyz", ?_, ?_⟩
  · rw [records_same req asked]
    exact lookup_records
  · revert req
    decide

theorem records_fit :
    ThresholdFits recordStore.coalesceThreshold records := by
  have sorted : sortedByOffset records = records :=
    List.mergeSort_of_pairwise (by decide)
  unfold ThresholdFits
  rw [sorted]
  decide

theorem prefetch_records :
    @PrefetchCoordinator.prefetch (.built true) recordStore (.any _) (.any _)
        ⟨List.range, fun _ => .refl _⟩ records =
      some (.ok [⟨1, text "abcd"⟩, ⟨2, text "wxyz"⟩]) := by
  have answered : records.map (answerTo recordStore) =
      [⟨1, text "abcd"⟩, ⟨2, text "wxyz"⟩] := by
    simp only [records, List.map_cons, List.map_nil, answerTo, bytesAt,
      lookup_records]
    decide
  rw [← answered]
  exact (prefetch_iff recordStore records records_inside).mpr
    (prefetchable_of_same records_same records_fit (by decide)) true _ _ _

/-- The first records of two segments. -/
def crossed : List FetchRequest :=
  [{ docId := 1, segmentId := 0, offset := 0, len := 4 },
    { docId := 2, segmentId := 1, offset := 0, len := 4 }]

def crossedStore : PrefetchCoordinator where
  objectStore := ((∅ : HashMap Bytes Bytes).insert
    (text "seg/seg_000000.rvf2") (text "abcd")).insert
    (text "seg/seg_000001.rvf2") (text "wxyz")

theorem lookup_crossed :
    crossedStore.objectStore.lookup (crossedStore.segmentKey 0) =
        some (text "abcd") ∧
      crossedStore.objectStore.lookup (crossedStore.segmentKey 1) =
        some (text "wxyz") := by
  have first : crossedStore.segmentKey 0 = text "seg/seg_000000.rvf2" := by
    decide
  have second : crossedStore.segmentKey 1 = text "seg/seg_000001.rvf2" := by
    decide
  rw [first, second]
  refine ⟨?_, Finmap.lookup_insert _⟩
  exact (Finmap.lookup_insert_of_ne _ (by decide)).trans
    (Finmap.lookup_insert _)

theorem crossed_inside : ∀ req ∈ crossed, LiesInside crossedStore req := by
  intro req asked
  rcases List.mem_cons.mp asked with rfl | other
  · exact ⟨text "abcd", lookup_crossed.1, by decide⟩
  · rw [List.mem_singleton.mp other]
    exact ⟨text "wxyz", lookup_crossed.2, by decide⟩

theorem requestsOf_crossed : requestsOf crossed 1 =
    [{ docId := 2, segmentId := 1, offset := 0, len := 4 }] := by
  decide

theorem crossed_fit (segmentId : UInt32) :
    ThresholdFits crossedStore.coalesceThreshold
      (requestsOf crossed segmentId) := by
  intro req member
  have asked : req ∈ crossed := by
    have listed := List.mem_of_mem_dropLast member
    exact List.mem_of_mem_filter
      ((sortedByOffset_perm _).mem_iff.mp listed)
  have all : ∀ req ∈ crossed, req.stop +
      crossedStore.coalesceThreshold.toNat ≤ usizeMax := by
    decide
  exact all req asked

/-- The document of the first segment gets the bytes of the second. -/
theorem prefetch_crosses :
    @PrefetchCoordinator.prefetch (.built true) crossedStore (.withLast 1)
        (.withFirst 0) ⟨List.range, fun _ => .refl _⟩ crossed =
      some (.ok [⟨1, text "wxyz"⟩, ⟨2, text "wxyz"⟩]) ∧
    ¬∀ checks segments offsets completion,
      @PrefetchCoordinator.prefetch (.built checks) crossedStore segments
          offsets completion crossed =
        some (.ok (crossed.map (answerTo crossedStore))) := by
  have ranges : coalesced crossedStore.coalesceThreshold
      (requestsOf crossed 1) = [⟨0, 4, [2]⟩] := by
    rw [requestsOf_crossed]
    unfold coalesced sortedByOffset
    rw [List.mergeSort_singleton]
    decide
  have member : (⟨0, 4, [2]⟩ : CoalescedRange) ∈
      coalesced crossedStore.coalesceThreshold (requestsOf crossed 1) := by
    rw [ranges]
    exact List.mem_singleton_self _
  have found : ∀ req ∈ crossed, PrefetchCoordinator.extract
      ((Listing.withFirst 0).entries (fetchedRanges crossedStore
        (.withLast 1) crossed)) req =
          some { docId := req.docId, data := text "wxyz" } := by
    intro req asked
    have held : (⟨0, 4, [2]⟩ : CoalescedRange).holds req = true := by
      revert req
      decide
    have bytes : bytesAt crossedStore 1 req = text "wxyz" := by
      unfold bytesAt
      rw [lookup_crossed.2]
      revert req
      decide
    rw [← bytes]
    exact extract_withFirst crossed_inside member held
  have ran : @PrefetchCoordinator.prefetch (.built true) crossedStore
      (.withLast 1) (.withFirst 0) ⟨List.range, fun _ => .refl _⟩ crossed =
        some (.ok [⟨1, text "wxyz"⟩, ⟨2, text "wxyz"⟩]) := by
    rw [prefetch_of crossed_fit (by decide) crossed_inside
      (List.cons_ne_nil _ _), filterMap_eq_map_iff.mpr found]
    rfl
  refine ⟨ran, fun right => ?_⟩
  have own := right true (.withLast 1) (.withFirst 0)
    ⟨List.range, fun _ => .refl _⟩
  rw [ran] at own
  have answered : crossed.map (answerTo crossedStore) =
      [⟨1, text "abcd"⟩, ⟨2, text "wxyz"⟩] := by
    simp only [crossed, List.map_cons, List.map_nil, answerTo, bytesAt,
      lookup_crossed]
    decide
  rw [answered] at own
  have docs := Except.ok.inj (Option.some.inj own)
  revert docs
  decide

end

end RedVector.Rvf2
