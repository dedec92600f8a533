import RedVector.Gpu.Distance
import RedVector.Util.Rows

/-!
# The inverted file index

Vectors are kept in one list for each cluster, and a search looks at the lists
of the clusters that are nearest to the query.  The quantizers are parameters,
as far as the index uses them.
-/

namespace RedVector.Gpu

open Util

class Quantizer (F Q : Type) where
  /-- Training with data for so many iterations. -/
  train : Q → List F → Nat → Option Q
  encode : Q → List F → Option Bytes
  /-- The scores of a query and so many vectors with their codes. -/
  scores : Q → DistanceMetric → List F → Bytes → Nat → Option (List F)

structure IvfConfig (Q : Type) where
  nClusters : Nat
  nProbe : Nat
  /-- The new quantizer, if there is quantization. -/
  quantizer : Option Q
  trainingIterations : Nat

structure InvertedList (F : Type) where
  ids : List UInt64
  codes : Bytes
  vectors : Option (List F)

def InvertedList.new {F : Type} (useFloat : Bool) : InvertedList F :=
  { ids := [], codes := [], vectors := if useFloat then some [] else none }

section

variable {F : Type} [Single F]

/-- The better one of two places and how near they are.  For a similarity,
infinity is replaced by anything. -/
def nearer (metric : DistanceMetric) (best next : F × Nat) : F × Nat :=
  let isBetter :=
    if metric.isSimilarity then
      Single.lt best.1 next.1 || Single.eq best.1 Single.infinity
    else Single.lt next.1 best.1
  if isBetter then next else best

/-- The place of the nearest one. -/
def nearestOf (metric : DistanceMetric) (values : List F) : Nat :=
  (values.zipIdx.foldl (nearer metric) (Single.infinity, 0)).2

/-! ## k-means -/

/-- The sums and the counts of an assignment of points. -/
structure Sums (F : Type) where
  sums : List (List F)
  counts : List Nat

def assignPoint (centroids : List (List F)) (clusters : Sums F)
    (point : List F) : Option (Sums F) := do
  let cluster := nearestOf .l2 (centroids.map fun centroid =>
    sum (point.zipWith (fun a b => Single.square (Single.sub a b)) centroid))
  let count ← clusters.counts[cluster]?
  let sums ← clusters.sums[cluster]?
  pure
    { sums := clusters.sums.set cluster (sums.zipWith Single.add point)
      counts := clusters.counts.set cluster (count + 1) }

/-- One iteration: all points are assigned before a centroid is moved. -/
def iteration (points : List (List F)) (dim : Nat)
    (centroids : List (List F)) : Option (List (List F)) := do
  let clusters ← points.foldlM (assignPoint centroids)
    { sums := List.replicate centroids.length
        (List.replicate dim Single.zero)
      counts := List.replicate centroids.length 0 }
  pure (List.zipWith (fun centroid cluster =>
      if 0 < cluster.2 then
        cluster.1.map fun x => Single.div x (Single.ofUsize cluster.2)
      else centroid)
    centroids (clusters.sums.zip clusters.counts))

def iterations (points : List (List F)) (dim : Nat) :
    Nat → List (List F) → Option (List (List F))
  | 0, centroids => some centroids
  | rounds + 1, centroids => do
      iterations points dim rounds (← iteration points dim centroids)

/-- The centroids one after the other; they are taken as rows until the end. -/
def kmeansTrain [Platform] (data : List F) (dim k nIter : Nat) :
    Option (List F) := do
  let points := rowsOf dim data
  let centroids ← (List.range k).mapM fun i => do
    let scaled ← usize (i * points.length : Nat)
    if points.length = 0 then none
    else points[scaled / k % points.length]?
  let centroids ← iterations points dim nIter centroids
  pure centroids.flatten

end

/-! ## The index -/

structure GpuIvfIndex (F Q : Type) where
  dim : Nat
  metric : DistanceMetric
  ivfConfig : IvfConfig Q
  centroids : List F
  invertedLists : List (InvertedList F)
  quantizer : Option Q
  trained : Bool
  totalVectors : Nat

namespace GpuIvfIndex

variable {F Q : Type}

def new (dim : Nat) (metric : DistanceMetric) (ivfConfig : IvfConfig Q) :
    GpuIvfIndex F Q :=
  { dim := dim
    metric := metric
    ivfConfig := ivfConfig
    centroids := []
    invertedLists := List.replicate ivfConfig.nClusters
      (.new ivfConfig.quantizer.isNone)
    quantizer := ivfConfig.quantizer
    trained := false
    totalVectors := 0 }

def clear (index : GpuIvfIndex F Q) :
    Except GpuError Unit × GpuIvfIndex F Q :=
  (.ok (), { index with
    invertedLists := index.invertedLists.map fun list =>
      { ids := [], codes := [], vectors := list.vectors.map fun _ => [] }
    totalVectors := 0 })

/-- Removes nothing. -/
def remove (index : GpuIvfIndex F Q) (_ids : List UInt64) :
    Except GpuError Nat × GpuIvfIndex F Q :=
  (.ok 0, index)

variable [Single F] (index : GpuIvfIndex F Q)

/-- The scores of a vector and the centroids. -/
def centroidScores (vector : List F) : Option (List F) :=
  (List.range index.ivfConfig.nClusters).mapM fun i => do
    let centroid ← subslice index.centroids (i * index.dim)
      ((i + 1) * index.dim)
    pure (index.metric.compute vector centroid)

def findNearestCluster (vector : List F) : Option Nat := do
  let dists ← index.centroidScores vector
  pure (nearestOf index.metric dists)

def findNearestClusters (query : List F) (k : Nat) :
    Option (List (Nat × F)) := do
  let dists ← index.centroidScores query
  let sorted ← index.metric.sortBy Prod.snd
    (dists.zipIdx.map fun (dist, i) => (i, dist))
  pure (sorted.take k)

variable [Quantizer F Q]

/-- The scores of a query and the vectors of a list. -/
def listScores (list : InvertedList F) (query : List F) :
    Option (List F) :=
  match index.quantizer with
  | none => do
      let vectors ← list.vectors
      (List.range list.ids.length).mapM fun i => do
        let vector ← subslice vectors (i * index.dim) ((i + 1) * index.dim)
        pure (index.metric.compute query vector)
  | some quantizer =>
      Quantizer.scores quantizer index.metric query list.codes list.ids.length

def searchCluster (clusterIdx : Nat) (query : List F) (k : Nat) :
    Option (List (SearchResult F)) := do
  let list ← index.invertedLists[clusterIdx]?
  if list.ids = [] then pure []
  else do
    let scores ← index.listScores list query
    let results ← scores.zipIdx.mapM fun (score, i) => do
      let id ← list.ids[i]?
      pure { id := id, score := score }
    let sorted ← index.metric.sortBy SearchResult.score results
    pure (sorted.take k)

def search (query : List F) (k : Nat) :
    Option (Except GpuError (List (SearchResult F))) :=
  if index.trained = false then some (.error .notTrained)
  else if query.length ≠ index.dim then
    some (.error (.dimensionMismatch index.dim query.length))
  else do
    let clusters ← index.findNearestClusters query index.ivfConfig.nProbe
    let results ← clusters.mapM fun (clusterIdx, _) =>
      index.searchCluster clusterIdx query k
    let sorted ← index.metric.sortBy SearchResult.score results.flatten
    pure (.ok (sorted.take k))

/-- Adds a vector to the list of its cluster. -/
def addVector (lists : List (InvertedList F)) (entry : UInt64 × List F) :
    Option (List (InvertedList F)) := do
  let clusterIdx ← index.findNearestCluster entry.2
  let list ← lists[clusterIdx]?
  match index.quantizer with
  | none => do
      let vectors ← list.vectors
      pure (lists.set clusterIdx { list with
        ids := list.ids ++ [entry.1]
        vectors := some (vectors ++ entry.2) })
  | some quantizer => do
      let codes ← Quantizer.encode quantizer entry.2
      pure (lists.set clusterIdx { list with
        ids := list.ids ++ [entry.1]
        codes := list.codes ++ codes })

/-- A dimension of zero panics. -/
def add (ids : List UInt64) (vectors : List F) :
    Option (Except GpuError Unit × GpuIvfIndex F Q) :=
  if index.trained = false then some (.error .notTrained, index)
  else if index.dim = 0 then none
  else if ids.length ≠ vectors.length / index.dim then
    some (.error (.dimensionMismatch (vectors.length / index.dim) ids.length),
      index)
  else do
    let lists ← (ids.zip (rowsOf index.dim vectors)).foldlM index.addVector
      index.invertedLists
    pure (.ok (), { index with
      invertedLists := lists
      totalVectors := index.totalVectors + vectors.length / index.dim })

/-- A dimension of zero panics. -/
def train [Platform] (trainingData : List F) :
    Option (Except GpuError Unit × GpuIvfIndex F Q) :=
  if index.dim = 0 then none
  else if trainingData.length / index.dim < index.ivfConfig.nClusters then
    some (.error (.computeError (text "Need at least " ++
      natToString index.ivfConfig.nClusters ++
      text " training vectors, got " ++
      natToString (trainingData.length / index.dim))), index)
  else do
    let centroids ← kmeansTrain trainingData index.dim
      index.ivfConfig.nClusters index.ivfConfig.trainingIterations
    let quantizer ← match index.quantizer with
      | none => pure none
      | some quantizer => do
          let quantizer ← Quantizer.train quantizer trainingData
            index.ivfConfig.trainingIterations
          pure (some quantizer)
    pure (.ok (), { index with
      centroids := centroids
      quantizer := quantizer
      trained := true })

end GpuIvfIndex

end RedVector.Gpu
