import RedVector.Effect.Listing
import RedVector.Value.Hash
import RedVector.VectorSearch.Platform

/-!
# Vector indexes

A linear scan for small indexes and a graph for large ones, and the index that
switches from the first to the second.
-/

namespace RedVector.VectorSearch

open Effect Util

variable [VectorPlatform]

abbrev DocId := UInt64

inductive VectorMetric where
  | cosine
  | euclidean
  | innerProduct
  deriving DecidableEq

/-- What an operation on a vector of the wrong dimension fails with. -/
def dimensionMismatch (subject : Bytes) (expected got : Nat) : Bytes :=
  subject ++ text " dimension mismatch: expected " ++ natToString expected ++
    text ", got " ++ natToString got

/-- `sort_by(|a, b| b.1.partial_cmp(&a.1).unwrap_or(Equal))`. -/
def sortDescending (results : List (DocId × F32)) : List (DocId × F32) :=
  results.mergeSort fun a b => !VectorPlatform.f32Lt a.2 b.2

/-! ## The linear scan -/

structure LinearScanIndex where
  vectors : HashMap DocId Vector32
  dimension : Nat
  metric : VectorMetric

namespace LinearScanIndex

def new (dimension : Nat) (metric : VectorMetric) : LinearScanIndex :=
  { vectors := ∅, dimension := dimension, metric := metric }

def add (index : LinearScanIndex) (docId : DocId) (vector : Vector32) :
    Except Bytes LinearScanIndex :=
  if vector.length ≠ index.dimension then
    .error (dimensionMismatch (text "Vector") index.dimension vector.length)
  else .ok { index with vectors := index.vectors.insert docId vector }

def remove (index : LinearScanIndex) (docId : DocId) : LinearScanIndex :=
  { index with vectors := index.vectors.erase docId }

/-- How close a vector is to a query. -/
def similarity (metric : VectorMetric) (query vector : Vector32) : F32 :=
  match metric with
  | .cosine => VectorPlatform.cosineSimilaritySimd query vector
  | .euclidean =>
      VectorPlatform.f32Neg (VectorPlatform.euclideanDistanceSimd query vector)
  | .innerProduct => VectorPlatform.innerProductSimd query vector

def search (listing : Listing DocId) (index : LinearScanIndex)
    (query : Vector32) (topK : Nat) : Except Bytes (List (DocId × F32)) :=
  if query.length ≠ index.dimension then
    .error (dimensionMismatch (text "Query vector") index.dimension
      query.length)
  else
    let results := (listing.entries index.vectors).map fun (docId, vector) =>
      (docId, similarity index.metric query vector)
    .ok ((sortDescending results).take topK)

end LinearScanIndex

/-! ## The graph -/

structure HNSWIndex where
  hnsw : VectorPlatform.Hnsw
  dimension : Nat
  metric : VectorMetric
  efSearch : Nat
  nextId : Nat
  idToDocId : HashMap Nat DocId
  docIdToId : HashMap DocId Nat

namespace HNSWIndex

/-- The number of layers is `min(16, trunc(ln(1000000)))`. -/
def new (dimension : Nat) (metric : VectorMetric)
    (m efConstruction efSearch : Nat) : HNSWIndex :=
  { hnsw := VectorPlatform.hnswNew m 1000000 13 efConstruction
    dimension := dimension
    metric := metric
    efSearch := efSearch
    nextId := 0
    idToDocId := ∅
    docIdToId := ∅ }

def newFastInsert (dimension : Nat) (metric : VectorMetric) : HNSWIndex :=
  new dimension metric 16 100 50

def insert (index : HNSWIndex) (docId : DocId) (vector : Vector32) :
    Except Bytes HNSWIndex :=
  if vector.length ≠ index.dimension then
    .error (dimensionMismatch (text "Vector") index.dimension vector.length)
  else
    match index.docIdToId.lookup docId with
    | some id =>
        .ok { index with
          hnsw := VectorPlatform.hnswInsert index.hnsw vector id }
    | none =>
        let id := index.nextId
        .ok { index with
          nextId := id + 1
          idToDocId := index.idToDocId.insert id docId
          docIdToId := index.docIdToId.insert docId id
          hnsw := VectorPlatform.hnswInsert index.hnsw vector id }

/-- The vector stays in the graph. -/
def remove (index : HNSWIndex) (docId : DocId) : HNSWIndex :=
  { index with docIdToId := index.docIdToId.erase docId }

/-- The similarity that belongs to a distance. -/
def similarity (metric : VectorMetric) (distance : F32) : F32 :=
  match metric with
  | .cosine => VectorPlatform.f32OneMinus distance
  | .euclidean => VectorPlatform.f32Neg distance
  | .innerProduct => VectorPlatform.f32Neg distance

def search (index : HNSWIndex) (query : Vector32) (topK : Nat) :
    Except Bytes (List (DocId × F32)) :=
  if query.length ≠ index.dimension then
    .error (dimensionMismatch (text "Query vector") index.dimension
      query.length)
  else
    let neighbours := VectorPlatform.hnswSearch index.hnsw query (max topK 1)
      index.efSearch
    .ok (sortDescending (neighbours.filterMap fun (id, distance) =>
      (index.idToDocId.lookup id).map fun docId =>
        (docId, similarity index.metric distance)))

end HNSWIndex

/-! ## The index that switches -/

inductive VectorIndexBackend where
  | linear (index : LinearScanIndex)
  | hnsw (index : HNSWIndex)

namespace VectorIndexBackend

def add (backend : VectorIndexBackend) (docId : DocId) (vector : Vector32) :
    Except Bytes VectorIndexBackend :=
  match backend with
  | .linear index => (index.add docId vector).map .linear
  | .hnsw index => (index.insert docId vector).map .hnsw

def remove (backend : VectorIndexBackend) (docId : DocId) :
    VectorIndexBackend :=
  match backend with
  | .linear index => .linear (index.remove docId)
  | .hnsw index => .hnsw (index.remove docId)

def search (listing : Listing DocId) (backend : VectorIndexBackend)
    (query : Vector32) (topK : Nat) : Except Bytes (List (DocId × F32)) :=
  match backend with
  | .linear index => index.search listing query topK
  | .hnsw index => index.search query topK

def isHnsw : VectorIndexBackend → Bool
  | .linear _ => false
  | .hnsw _ => true

end VectorIndexBackend

structure VectorIndex where
  backend : VectorIndexBackend
  dimension : Nat
  metric : VectorMetric
  hnswThreshold : Nat
  size : Nat

namespace VectorIndex

def withThreshold (dimension : Nat) (metric : VectorMetric)
    (hnswThreshold : Nat) : VectorIndex :=
  { backend := .linear (.new dimension metric)
    dimension := dimension
    metric := metric
    hnswThreshold := hnswThreshold
    size := 0 }

def new (dimension : Nat) (metric : VectorMetric) : VectorIndex :=
  withThreshold dimension metric 10000

/-- The vectors of the linear scan are lost. -/
def migrateToHnsw (index : VectorIndex) : VectorIndex :=
  { index with
    backend := .hnsw (.newFastInsert index.dimension index.metric) }

/-- Whether the next vector goes to a new graph. -/
def migrates (index : VectorIndex) : Bool :=
  decide (index.hnswThreshold ≤ index.size) && !index.backend.isHnsw

/-- A failure leaves a new graph in place. -/
def add (index : VectorIndex) (docId : DocId) (vector : Vector32) :
    Except Bytes Unit × VectorIndex :=
  let index := if index.migrates then index.migrateToHnsw else index
  match index.backend.add docId vector with
  | .error error => (.error error, index)
  | .ok backend =>
      (.ok (), { index with backend := backend, size := index.size + 1 })

def search (listing : Listing DocId) (index : VectorIndex)
    (query : Vector32) (topK : Nat) : Except Bytes (List (DocId × F32)) :=
  index.backend.search listing query topK

/-- Both backends remove any number without an error. -/
def remove (index : VectorIndex) (docId : DocId) :
    Except Bytes Unit × VectorIndex :=
  (.ok (), { index with
    backend := index.backend.remove docId
    size := index.size - 1 })

def len (index : VectorIndex) : Nat :=
  index.size

end VectorIndex

end RedVector.VectorSearch
