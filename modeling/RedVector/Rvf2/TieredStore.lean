import RedVector.Rvf2.Segment

/-!
# Tiered storage

Segments in the hot directory, in the cache and in the object store.  Every
access to a file, to the cache or to the store is one step, and the file
operations succeed.  A mapping of a file shows what the file holds.
-/

namespace RedVector.Rvf2

open Util

/-! ## The cache -/

/-- A mapping of a file with the size that the file had. -/
structure CachedSegment where
  path : Bytes
  header : SegmentHeader
  size : Nat

structure LruSegmentCache where
  segments : HashMap UInt32 CachedSegment
  /-- The most recent access is the last. -/
  order : List UInt32
  maxBytes : Nat
  currentBytes : Nat

namespace LruSegmentCache

def new (maxBytes : Nat) : LruSegmentCache where
  segments := ∅
  order := []
  maxBytes := maxBytes
  currentBytes := 0

def get (cache : LruSegmentCache) (segmentId : UInt32) :
    Option (CachedSegment × LruSegmentCache) :=
  match cache.segments.lookup segmentId with
  | some cached =>
      some (cached, { cache with
        order := (cache.order.filter fun id => id ≠ segmentId) ++
          [segmentId] })
  | none => none

/-- Drops the entry whose last access is the oldest; `none` is an
underflow. -/
def evict (cache : LruSegmentCache) : Option LruSegmentCache :=
  match cache.order with
  | [] => some cache
  | evictId :: order =>
      match cache.segments.lookup evictId with
      | some evicted =>
          if evicted.size ≤ cache.currentBytes then
            some { cache with
              segments := cache.segments.erase evictId
              order := order
              currentBytes := cache.currentBytes - evicted.size }
          else none
      | none => some { cache with order := order }

/-- Evicts until there is room or nothing is left; every round takes an entry
from the order, whose length bounds the rounds. -/
def makeRoom (size : Nat) : Nat → LruSegmentCache → Option LruSegmentCache
  | 0, cache => some cache
  | rounds + 1, cache =>
      if cache.maxBytes < cache.currentBytes + size ∧ cache.order ≠ [] then do
        makeRoom size rounds (← cache.evict)
      else some cache

def put (cache : LruSegmentCache) (segmentId : UInt32)
    (cached : CachedSegment) : Option LruSegmentCache := do
  let cache ← makeRoom cached.size cache.order.length cache
  some { cache with
    segments := cache.segments.insert segmentId cached
    order := cache.order ++ [segmentId]
    currentBytes := cache.currentBytes + cached.size }

def clear (cache : LruSegmentCache) : LruSegmentCache :=
  { cache with segments := ∅, order := [], currentBytes := 0 }

end LruSegmentCache

/-! ## The store -/

structure TieredStoreStats where
  hotHits : Nat := 0
  warmHits : Nat := 0
  coldFetches : Nat := 0
  bytesRead : Nat := 0
  coldBytesFetched : Nat := 0

/-- The files are those of the hot directory, by their names. -/
structure TieredStore where
  files : HashMap Bytes Bytes
  warmCache : LruSegmentCache
  objectStore : Option (HashMap Bytes Bytes)
  segmentPrefix : Bytes
  stats : TieredStoreStats

namespace TieredStore

/-- `{:06}`. -/
def padded (number : Nat) : Bytes :=
  List.replicate (6 - (natToString number).length) 48 ++ natToString number

def fileName (segmentId : UInt32) : Bytes :=
  text "seg_" ++ (padded segmentId.toNat ++ text ".rvf2")

def hotPath (segmentId : UInt32) : Bytes :=
  fileName segmentId

def cachePath (segmentId : UInt32) : Bytes :=
  text "cache_" ++ fileName segmentId

def coldKey (store : TieredStore) (segmentId : UInt32) : Bytes :=
  store.segmentPrefix ++ (text "/" ++ fileName segmentId)

/-- What the object store answers without an object under the key. -/
def notFound : Rvf2Error :=
  .io (text "No such file or directory (os error 2)")

/-- The object of a segment. -/
def fetch (store : TieredStore) (segmentId : UInt32) :
    Except Rvf2Error Bytes :=
  match store.objectStore with
  | none => .error (.segmentNotFound segmentId)
  | some objects =>
      match objects.lookup (store.coldKey segmentId) with
      | some bytes => .ok bytes
      | none => .error notFound

/-- The mapping of a cached segment as it is now. -/
def mapped (store : TieredStore) (cached : CachedSegment) : Segment where
  mmap := (store.files.lookup cached.path).getD []
  header := cached.header

def hitHot (stats : TieredStoreStats) (size : Nat) : TieredStoreStats :=
  { stats with
    hotHits := stats.hotHits + 1
    bytesRead := stats.bytesRead + size }

def hitWarm (stats : TieredStoreStats) (size : Nat) : TieredStoreStats :=
  { stats with
    warmHits := stats.warmHits + 1
    bytesRead := stats.bytesRead + size }

def fetchCold (stats : TieredStoreStats) (size : Nat) : TieredStoreStats :=
  { stats with
    coldFetches := stats.coldFetches + 1
    coldBytesFetched := stats.coldBytesFetched + size
    bytesRead := stats.bytesRead + size }

/-- Writes a fetched object to its file, maps it and caches the mapping. -/
def cacheFetched (store : TieredStore) (segmentId : UInt32) (bytes : Bytes) :
    Option (Except Rvf2Error Segment × TieredStore) :=
  let store :=
    { store with files := store.files.insert (cachePath segmentId) bytes }
  match Segment.ofFile bytes with
  | .error error => some (.error error, store)
  | .ok segment => do
      let warmCache ← store.warmCache.put segmentId
        { path := cachePath segmentId
          header := segment.header
          size := bytes.length }
      some (.ok segment, { store with
        warmCache := warmCache
        stats := fetchCold store.stats bytes.length })

/-- The segment from any tier; `none` is a panic. -/
def getSegment (store : TieredStore) (segmentId : UInt32) :
    Option (Except Rvf2Error Segment × TieredStore) :=
  match store.files.lookup (hotPath segmentId) with
  | some bytes =>
      match Segment.ofFile bytes with
      | .error error => some (.error error, store)
      | .ok segment => some (.ok segment, { store with
          stats := hitHot store.stats bytes.length })
  | none =>
      match store.warmCache.get segmentId with
      | some (cached, warmCache) =>
          some (.ok (store.mapped cached), { store with
            warmCache := warmCache
            stats := hitWarm store.stats cached.size })
      | none =>
          match store.fetch segmentId with
          | .error error => some (.error error, store)
          | .ok bytes => store.cacheFetched segmentId bytes

/-- Gets the segments and drops the answers. -/
def prefetch (store : TieredStore) : List UInt32 → Option TieredStore
  | [] => some store
  | segmentId :: rest => do
      let (_, store) ← store.getSegment segmentId
      prefetch store rest

def pin (store : TieredStore) (segmentId : UInt32) :
    Except Rvf2Error Unit × TieredStore :=
  if (store.files.lookup (hotPath segmentId)).isSome then (.ok (), store)
  else
    match store.fetch segmentId with
    | .error error => (.error error, store)
    | .ok bytes => (.ok (), { store with
        files := store.files.insert (hotPath segmentId) bytes })

def unpin (store : TieredStore) (segmentId : UInt32) : TieredStore :=
  { store with files := store.files.erase (hotPath segmentId) }

def upload (store : TieredStore) (segmentId : UInt32) (data : Bytes) :
    Except Rvf2Error Unit × TieredStore :=
  match store.objectStore with
  | none => (.error (.objectStore (text "No object store configured")), store)
  | some objects => (.ok (), { store with
      objectStore := some (objects.insert (store.coldKey segmentId) data) })

def clearCache (store : TieredStore) : TieredStore :=
  { store with warmCache := store.warmCache.clear }

end TieredStore

/-- An operation on the store. -/
inductive TierOp where
  | upload (segmentId : UInt32) (data : Bytes)
  | pin (segmentId : UInt32)
  | unpin (segmentId : UInt32)
  | getSegment (segmentId : UInt32)
  | prefetch (segmentIds : List UInt32)
  /-- One round of the eviction by which the cache makes room. -/
  | evict
  | clearCache

/-- What an operation leaves, whatever it answers. -/
def TieredStore.perform (store : TieredStore) :
    TierOp → Option TieredStore
  | .upload segmentId data => some (store.upload segmentId data).2
  | .pin segmentId => some (store.pin segmentId).2
  | .unpin segmentId => some (store.unpin segmentId)
  | .getSegment segmentId => (store.getSegment segmentId).map Prod.snd
  | .prefetch segmentIds => store.prefetch segmentIds
  | .evict => do
      let warmCache ← store.warmCache.evict
      some { store with warmCache := warmCache }
  | .clearCache => some store.clearCache

end RedVector.Rvf2
