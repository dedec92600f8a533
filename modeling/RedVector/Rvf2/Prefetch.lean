import RedVector.Effect.Listing
import RedVector.Rvf2.TieredStore
import RedVector.Util.Clusters

/-!
# Prefetching

The byte ranges of requests are coalesced within each segment, fetched by
concurrent tasks and matched with the requests again.  The object store is a
directory of files.
-/

namespace RedVector.Rvf2

open Effect Util

structure FetchRequest where
  docId : UInt64
  segmentId : UInt32
  offset : UInt32
  len : UInt32
  deriving DecidableEq

namespace FetchRequest

def start (req : FetchRequest) : Nat :=
  req.offset.toNat

/-- The sum of two `u32` fits a `u64`. -/
def stop (req : FetchRequest) : Nat :=
  req.start + req.len.toNat

end FetchRequest

structure FetchedDoc where
  docId : UInt64
  data : Bytes
  deriving DecidableEq

structure PrefetchCoordinator where
  objectStore : HashMap Bytes Bytes
  maxConcurrency : Nat := 64
  coalesceThreshold : UInt64 := 4096
  segmentPrefix : Bytes := text "seg"

/-! ## Coalescing -/

structure CoalescedRange where
  offset : Nat
  len : Nat
  docIds : List UInt64
  deriving DecidableEq

/-- `current_start`, `current_end` and `current_docs`. -/
structure CurrentRange where
  start : Nat
  stop : Nat
  docs : List UInt64

namespace CurrentRange

def begin (req : FetchRequest) : CurrentRange where
  start := req.start
  stop := req.stop
  docs := [req.docId]

def extend (current : CurrentRange) (req : FetchRequest) : CurrentRange :=
  { current with
    stop := max current.stop req.stop
    docs := current.docs ++ [req.docId] }

def emit (current : CurrentRange) : CoalescedRange where
  offset := current.start
  len := current.stop - current.start
  docIds := current.docs

end CurrentRange

section Coalesce

variable [Platform]

/-- A `u64` is as wide as a `usize`. -/
def coalesceFrom (threshold : UInt64) :
    CurrentRange → List FetchRequest → Option (List CoalescedRange)
  | current, [] => some [current.emit]
  | current, req :: rest => do
      if req.start < (← usize (current.stop + threshold.toNat)) then
        coalesceFrom threshold (current.extend req) rest
      else
        let ranges ← coalesceFrom threshold (.begin req) rest
        pure (current.emit :: ranges)

/-- `sort_by_key(|r| r.offset)`. -/
def sortedByOffset (requests : List FetchRequest) : List FetchRequest :=
  requests.mergeSort fun a b => a.offset ≤ b.offset

def coalesceRanges (threshold : UInt64) (requests : List FetchRequest) :
    Option (List CoalescedRange) :=
  match sortedByOffset requests with
  | [] => some []
  | first :: rest => coalesceFrom threshold (.begin first) rest

end Coalesce

/-! ## Tasks -/

/-- `LocalFsStore::get_range`. -/
def getRange (objects : HashMap Bytes Bytes) (key : Bytes)
    (offset len : Nat) : Except Rvf2Error Bytes :=
  match objects.lookup key with
  | none => .error TieredStore.notFound
  | some bytes =>
      if offset + len ≤ bytes.length then .ok ((bytes.drop offset).take len)
      else .error (.io (text "early eof"))

/-- The range of one task, and the file that it is in. -/
structure FetchTask where
  key : Bytes
  range : CoalescedRange

/-- The orders in which some number of tasks complete. -/
structure Completion where
  order : Nat → List Nat
  complete : ∀ tasks, (order tasks).Perm (List.range tasks)

/-- Every task leaves its result in a place of its own when it completes. -/
def joinAll {α : Type} (completion : Completion) (outputs : List α) :
    Option (List α) :=
  let places := (completion.order outputs.length).foldl
    (fun places task => places.set task outputs[task]?)
    (outputs.map fun _ => none)
  places.mapM id

/-- Whether tasks pass a semaphore of so many permits: without any they wait
forever, and above the largest number `Semaphore::new` panics. -/
def semaphorePasses (permits : Nat) : Bool :=
  0 < permits && permits ≤ usizeMax / 8

namespace PrefetchCoordinator

def segmentKey (coordinator : PrefetchCoordinator) (segmentId : UInt32) :
    Bytes :=
  coordinator.segmentPrefix ++ (text "/" ++ TieredStore.fileName segmentId)

def bySegment (requests : List FetchRequest) :
    HashMap UInt32 (List FetchRequest) :=
  requests.foldl (fun groups req => groups.insert req.segmentId
    ((groups.lookup req.segmentId).getD [] ++ [req])) ∅

/-- The tasks in the order in which the map lists the segments. -/
def fetchTasks [Platform] (coordinator : PrefetchCoordinator)
    (segments : Listing UInt32) (requests : List FetchRequest) :
    Option (List FetchTask) := do
  let tasks ← (segments.entries (bySegment requests)).mapM fun
    (segmentId, segmentRequests) => do
      let coalesced ← coalesceRanges coordinator.coalesceThreshold
        segmentRequests
      pure (coalesced.map fun range =>
        { key := coordinator.segmentKey segmentId, range := range :
          FetchTask })
  pure tasks.flatten

def fetch (coordinator : PrefetchCoordinator) (task : FetchTask) :
    Except Rvf2Error (Nat × Bytes) :=
  (getRange coordinator.objectStore task.key task.range.offset
    task.range.len).map fun data => (task.range.offset, data)

/-- The first range that has the bytes of a request. -/
def extract (offsetToData : List (Nat × Bytes)) (req : FetchRequest) :
    Option FetchedDoc :=
  (offsetToData.find? fun (offset, data) =>
    offset ≤ req.start && req.stop ≤ offset + data.length).map
      fun (offset, data) =>
        { docId := req.docId
          data := (data.drop (req.start - offset)).take req.len.toNat }

/-- What the fetched ranges are kept by is their offset; `none` is a panic, or
a wait that never ends. -/
def prefetch [Platform] (coordinator : PrefetchCoordinator)
    (segments : Listing UInt32) (offsets : Listing Nat)
    (completion : Completion) (requests : List FetchRequest) :
    Option (Except Rvf2Error (List FetchedDoc)) :=
  if requests.isEmpty then some (.ok [])
  else do
    let tasks ← coordinator.fetchTasks segments requests
    if semaphorePasses coordinator.maxConcurrency then
      let results ← joinAll completion (tasks.map coordinator.fetch)
      pure do
        let fetched ← results.mapM id
        let offsetToData := offsets.entries (insertAll ∅ fetched)
        pure (requests.filterMap (extract offsetToData))
    else none

end PrefetchCoordinator

/-!
## Coalesced ranges

The ranges of the requests of a segment are the extents of clusters.  They
cover the requests, unless the threshold overflows or tears apart what takes
up nothing.
-/

section

def requestExtent : Extent FetchRequest where
  start := FetchRequest.start
  stop := FetchRequest.stop
  ordered := fun req => Nat.le_add_right req.start _

/-- The range that a cluster of requests takes up. -/
def CurrentRange.of (cluster : List FetchRequest) : CurrentRange where
  start := requestExtent.onset cluster
  stop := requestExtent.reach cluster
  docs := cluster.map FetchRequest.docId

/-- The ranges of requests, computed with numbers of any size. -/
def coalesced (threshold : UInt64) (requests : List FetchRequest) :
    List CoalescedRange :=
  (requestExtent.clusters threshold.toNat (sortedByOffset requests)).map
    fun cluster => (CurrentRange.of cluster).emit

namespace CoalescedRange

def stop (range : CoalescedRange) : Nat :=
  range.offset + range.len

/-- Whether the bytes of a request lie inside. -/
def holds (range : CoalescedRange) (req : FetchRequest) : Bool :=
  range.offset ≤ req.start && req.stop ≤ range.stop

end CoalescedRange

/-- What the ranges of requests should be. -/
structure Covers (threshold : UInt64) (requests : List FetchRequest)
    (ranges : List CoalescedRange) : Prop where
  ascending : ranges.Pairwise fun a b => a.offset ≤ b.offset
  disjoint : ranges.Pairwise fun a b => a.stop ≤ b.offset
  separated : ranges.Pairwise fun a b =>
    a.stop + threshold.toNat ≤ b.offset
  starts : ∀ range ∈ ranges, ∃ req ∈ requests, req.start = range.offset
  stops : ∀ range ∈ ranges, ∃ req ∈ requests, req.stop = range.stop
  once : ∀ req ∈ requests, (ranges.countP fun range => range.holds req) = 1
  docs : (ranges.flatMap CoalescedRange.docIds).Perm
    (requests.map FetchRequest.docId)

/-- The threshold overflows at no request but the last one in the order of the
offsets, where it is not added. -/
def ThresholdFits (threshold : UInt64) (requests : List FetchRequest) :
    Prop :=
  ∀ req ∈ (sortedByOffset requests).dropLast,
    req.stop + threshold.toNat ≤ usizeMax

/-- No request without bytes is where the requests before one end and that one
starts, unless the threshold keeps these together. -/
def Unsevered (threshold : UInt64) (requests : List FetchRequest) : Prop :=
  ∀ req ∈ requests, ¬(threshold.toNat = 0 ∧ req.start = req.stop ∧
    requestExtent.Seam req.start (sortedByOffset requests))

variable {threshold : UInt64} {requests current rest : List FetchRequest}

theorem sortedByOffset_perm (requests : List FetchRequest) :
    (sortedByOffset requests).Perm requests :=
  List.mergeSort_perm _ _

theorem sortedByOffset_sorted (requests : List FetchRequest) :
    requestExtent.Sorted (sortedByOffset requests) := by
  have sorted : (sortedByOffset requests).Pairwise fun a b =>
      decide (a.offset ≤ b.offset) = true := by
    refine List.pairwise_mergeSort ?_ ?_ requests
    · intro a b c first second
      rw [decide_eq_true_eq] at first second ⊢
      exact UInt32.le_trans first second
    · intro a b
      rw [Bool.or_eq_true, decide_eq_true_eq, decide_eq_true_eq]
      exact UInt32.le_total a.offset b.offset
  refine sorted.imp ?_
  intro a b order
  exact UInt32.le_iff_toNat_le.mp (of_decide_eq_true order)

theorem CurrentRange.of_begin (req : FetchRequest) :
    CurrentRange.begin req = .of [req] := by
  unfold begin of
  rw [Extent.reach_cons, Extent.reach_nil, Nat.max_zero]
  rfl

theorem CurrentRange.of_extend (some : current ≠ []) (req : FetchRequest) :
    (CurrentRange.of current).extend req = .of (current ++ [req]) := by
  unfold extend of
  rw [Extent.reach_append, Extent.reach_cons, Extent.reach_nil,
    Nat.max_zero, Extent.onset_append some, List.map_append]
  rfl

/-- Without an overflow the pass emits the ranges of clusters. -/
theorem coalesceFrom_of {platform : Platform} (some : current ≠ [])
    (fits : ∀ req ∈ (current ++ rest).dropLast,
      req.stop + threshold.toNat ≤ usizeMax) :
    @coalesceFrom platform threshold (.of current) rest =
      .some ((requestExtent.clustersFrom threshold.toNat current rest).map
        fun cluster => (CurrentRange.of cluster).emit) := by
  induction rest generalizing current with
  | nil => rfl
  | cons req rest ih =>
      have summed : @usize platform
          ((CurrentRange.of current).stop + threshold.toNat) =
            Option.some ((CurrentRange.of current).stop + threshold.toNat) := by
        obtain ⟨last, among, stops⟩ := requestExtent.exists_reach some
        refine usize_of (Int.natCast_add _ _).symm ?_
        have inside := fits last (by
          rw [List.dropLast_append_cons]
          exact List.mem_append_left _ among)
        show requestExtent.reach current + threshold.toNat ≤ usizeMax
        rw [← stops]
        exact inside
      rw [coalesceFrom, summed, Extent.clustersFrom, Option.bind_eq_bind,
        Option.bind_some]
      by_cases near : req.start <
          (CurrentRange.of current).stop + threshold.toNat
      · have inside : requestExtent.start req <
            requestExtent.reach current + threshold.toNat := near
        rw [if_pos near, if_pos inside, CurrentRange.of_extend some]
        refine ih (by simp) ?_
        rw [List.append_assoc]
        exact fits
      · have outside : ¬requestExtent.start req <
            requestExtent.reach current + threshold.toNat := near
        rw [if_neg near, if_neg outside, CurrentRange.of_begin,
          ih (List.cons_ne_nil req []) ?_]
        · rfl
        · intro other member
          apply fits
          rw [List.dropLast_append_cons]
          exact List.mem_append_right _ member

theorem coalesceRanges_of {platform : Platform}
    (fits : ThresholdFits threshold requests) :
    @coalesceRanges platform threshold requests =
      some (coalesced threshold requests) := by
  unfold ThresholdFits at fits
  unfold coalesceRanges coalesced
  cases sorted : sortedByOffset requests with
  | nil => rfl
  | cons first rest =>
      rw [sorted] at fits
      show coalesceFrom threshold (.begin first) rest = _
      rw [CurrentRange.of_begin]
      exact coalesceFrom_of (List.cons_ne_nil first []) fits

/-- With overflow checks every sum fits. -/
theorem fits_of_coalesceFrom [platform : Platform]
    {ranges : List CoalescedRange}
    (computed : @coalesceFrom (platform.built true) threshold (.of current)
      rest = some ranges)
    (some : current ≠ [])
    (before : ∀ req ∈ current.dropLast,
      req.stop + threshold.toNat ≤ usizeMax) :
    ∀ req ∈ (current ++ rest).dropLast,
      req.stop + threshold.toNat ≤ usizeMax := by
  induction rest generalizing current ranges with
  | nil =>
      rw [List.append_nil]
      exact before
  | cons req rest ih =>
      unfold coalesceFrom at computed
      obtain ⟨sum, added, computed⟩ := Option.bind_eq_some_iff.mp computed
      obtain ⟨-, inside, -⟩ := checked_usize added
      have all : ∀ other ∈ current,
          other.stop + threshold.toNat ≤ usizeMax := by
        intro other member
        have reaches : other.stop ≤ (CurrentRange.of current).stop :=
          requestExtent.stop_le_reach member
        omega
      split at computed
      · rw [CurrentRange.of_extend some] at computed
        have later := ih computed (by simp) (by
          rw [List.dropLast_concat]
          exact all)
        rwa [List.append_assoc] at later
      · obtain ⟨others, computed, -⟩ := Option.bind_eq_some_iff.mp computed
        rw [CurrentRange.of_begin] at computed
        have later := ih computed (List.cons_ne_nil req []) (by simp)
        intro other member
        rw [List.dropLast_append_cons] at member
        rcases List.mem_append.mp member with early | late
        · exact all other early
        · exact later other late

theorem fits_of_coalesceRanges [platform : Platform]
    {ranges : List CoalescedRange}
    (computed : @coalesceRanges (platform.built true) threshold requests =
      some ranges) : ThresholdFits threshold requests := by
  unfold coalesceRanges at computed
  unfold ThresholdFits
  cases sorted : sortedByOffset requests with
  | nil => simp
  | cons first rest =>
      rw [sorted] at computed
      have computed : @coalesceFrom (platform.built true) threshold
          (.begin first) rest = some ranges := computed
      rw [CurrentRange.of_begin] at computed
      exact fits_of_coalesceFrom computed (List.cons_ne_nil first [])
        (by simp)

/-! ## The cover -/

theorem emit_stop {cluster : List FetchRequest}
    (ordered : requestExtent.onset cluster ≤ requestExtent.reach cluster) :
    (CurrentRange.of cluster).emit.stop = requestExtent.reach cluster := by
  show requestExtent.onset cluster +
    (requestExtent.reach cluster - requestExtent.onset cluster) = _
  omega

theorem coalesced_clusters (threshold : UInt64)
    (requests : List FetchRequest) :
    requestExtent.Clusters threshold.toNat (sortedByOffset requests)
      (requestExtent.clusters threshold.toNat (sortedByOffset requests)) :=
  Extent.clusters_spec (sortedByOffset_sorted requests)

theorem clustered_mem {cluster : List FetchRequest} {req : FetchRequest}
    (among : cluster ∈ requestExtent.clusters threshold.toNat
      (sortedByOffset requests)) (inside : req ∈ cluster) :
    req ∈ requests := by
  have member := List.mem_flatten_of_mem among inside
  rw [(coalesced_clusters threshold requests).whole] at member
  exact (sortedByOffset_perm requests).mem_iff.mp member

/-- A range ends with one of the requests. -/
theorem coalesced_stop {range : CoalescedRange}
    (member : range ∈ coalesced threshold requests) :
    ∃ req ∈ requests, req.stop = range.stop := by
  have clustered := coalesced_clusters threshold requests
  obtain ⟨cluster, among, rfl⟩ := List.mem_map.mp member
  obtain ⟨req, inside, stops⟩ :=
    requestExtent.exists_reach (clustered.filled cluster among)
  refine ⟨req, clustered_mem among inside, ?_⟩
  rw [emit_stop (clustered.onset_le_reach among)]
  exact stops

/-- A request lies in as many ranges as there are clusters that span it. -/
theorem countP_holds (threshold : UInt64) (requests : List FetchRequest)
    (req : FetchRequest) :
    (coalesced threshold requests).countP (fun range => range.holds req) =
      (requestExtent.clusters threshold.toNat
        (sortedByOffset requests)).countP (requestExtent.spans req) := by
  have clustered := coalesced_clusters threshold requests
  unfold coalesced
  rw [List.countP_map]
  apply List.countP_congr
  intro cluster member
  have ends := emit_stop (clustered.onset_le_reach member)
  show CoalescedRange.holds _ req = true ↔
    requestExtent.spans req cluster = true
  unfold CoalescedRange.holds Extent.spans
  rw [ends]
  rfl

/-- Every request lies in a range. -/
theorem coalesced_holds (threshold : UInt64) {req : FetchRequest}
    (asked : req ∈ requests) :
    ∃ range ∈ coalesced threshold requests, range.holds req = true := by
  have clustered := coalesced_clusters threshold requests
  have listed : req ∈ (requestExtent.clusters threshold.toNat
      (sortedByOffset requests)).flatten := by
    rw [clustered.whole]
    exact (sortedByOffset_perm requests).mem_iff.mpr asked
  obtain ⟨cluster, among, inside⟩ := List.mem_flatten.mp listed
  have spanned := Extent.spans_of_mem (clustered.sorted_of_mem
    (sortedByOffset_sorted requests) among) inside
  have positive : 0 < (requestExtent.clusters threshold.toNat
      (sortedByOffset requests)).countP (requestExtent.spans req) :=
    List.countP_pos_iff.mpr ⟨cluster, among, spanned⟩
  rw [← countP_holds] at positive
  exact List.countP_pos_iff.mp positive

theorem coalesced_once (threshold : UInt64) (requests : List FetchRequest) :
    (∀ req ∈ requests, ((coalesced threshold requests).countP fun range =>
      range.holds req) = 1) ↔ Unsevered threshold requests := by
  have clustered := coalesced_clusters threshold requests
  refine forall₂_congr fun req member => ?_
  rw [countP_holds]
  exact clustered.countP_spans (sortedByOffset_sorted requests)
    ((sortedByOffset_perm requests).mem_iff.mpr member)

theorem coalesced_separated (threshold : UInt64)
    (requests : List FetchRequest) :
    (coalesced threshold requests).Pairwise fun a b =>
      a.stop + threshold.toNat ≤ b.offset := by
  have clustered := coalesced_clusters threshold requests
  unfold coalesced
  rw [List.pairwise_map]
  refine clustered.separated.imp_of_mem ?_
  intro earlier later isEarlier _ apart
  rw [emit_stop (clustered.onset_le_reach isEarlier)]
  exact apart

/-- The ranges cover the requests as far as no request is severed. -/
theorem coalesced_covers (unsevered : Unsevered threshold requests) :
    Covers threshold requests (coalesced threshold requests) := by
  have clustered := coalesced_clusters threshold requests
  have separated := coalesced_separated threshold requests
  refine ⟨separated.imp ?_, separated.imp ?_, separated, ?_, ?_,
    (coalesced_once threshold requests).mpr unsevered, ?_⟩
  · intro a b apart
    have inside : a.offset ≤ a.stop := Nat.le_add_right _ _
    omega
  · intro a b apart
    omega
  · intro range member
    obtain ⟨cluster, among, rfl⟩ := List.mem_map.mp member
    obtain ⟨req, inside, starts⟩ :=
      requestExtent.exists_onset (clustered.filled cluster among)
    exact ⟨req, clustered_mem among inside, starts⟩
  · exact fun range member => coalesced_stop member
  · have listed : (coalesced threshold requests).flatMap
        CoalescedRange.docIds =
          (sortedByOffset requests).map FetchRequest.docId := by
      have names := congrArg (List.map FetchRequest.docId) clustered.whole
      rw [List.map_flatten] at names
      unfold coalesced
      rw [List.flatMap_map, List.flatMap_def]
      exact names
    rw [listed]
    exact (sortedByOffset_perm requests).map _

/-- Coalescing covers the requests in both builds exactly if the threshold
does not overflow and no request is severed. -/
theorem coalesceRanges_covers_iff [Platform] (threshold : UInt64)
    (requests : List FetchRequest) :
    (∀ checks, ∃ ranges,
      @coalesceRanges (.built checks) threshold requests = some ranges ∧
        Covers threshold requests ranges) ↔
      ThresholdFits threshold requests ∧ Unsevered threshold requests := by
  constructor
  · intro covered
    obtain ⟨ranges, computed, covers⟩ := covered true
    have fits := fits_of_coalesceRanges computed
    rw [coalesceRanges_of fits] at computed
    cases computed
    exact ⟨fits, (coalesced_once threshold requests).mp covers.once⟩
  · rintro ⟨fits, unsevered⟩ checks
    exact ⟨coalesced threshold requests, coalesceRanges_of fits,
      coalesced_covers unsevered⟩

section

attribute [local instance] Platform.integral

/-- Requests for the bytes from 0 to 50 and from 49 to 60. -/
def overlapping : List FetchRequest :=
  [{ docId := 1, segmentId := 0, offset := 0, len := 50 },
    { docId := 2, segmentId := 0, offset := 49, len := 11 }]

theorem sortedByOffset_overlapping :
    sortedByOffset overlapping = overlapping :=
  List.mergeSort_of_pairwise (by decide)

/-- A threshold that is meant to keep all requests together panics, or leaves
the two ranges as they are. -/
theorem coalesceRanges_overflows :
    @coalesceRanges (.built true) 18446744073709551615 overlapping = none ∧
      @coalesceRanges (.built false) 18446744073709551615 overlapping =
        some [⟨0, 50, [1]⟩, ⟨49, 11, [2]⟩] ∧
      ¬∀ checks, ∃ ranges,
        @coalesceRanges (.built checks) 18446744073709551615 overlapping =
          some ranges ∧
        Covers 18446744073709551615 overlapping ranges := by
  have panics : @coalesceRanges (.built true) 18446744073709551615
      overlapping = none := by
    unfold coalesceRanges
    rw [sortedByOffset_overlapping]
    decide
  refine ⟨panics, ?_, ?_⟩
  · unfold coalesceRanges
    rw [sortedByOffset_overlapping]
    decide
  · intro covered
    obtain ⟨ranges, computed, -⟩ := covered true
    rw [panics] at computed
    cases computed

end

end

end RedVector.Rvf2
