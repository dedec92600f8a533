import RedVector.Kernels.SimdMetrics
import RedVector.Platform
import RedVector.Util.Best
import RedVector.Util.Rows

/-!
# Product quantization

Every subspace has a codebook of centroids that is trained on the parts of the
training vectors.  Single precision is taken as exact and the square root as
any function; which vectors the training starts with is up to the `rand`
crate.
-/

namespace RedVector.Quantization

open Kernels Util

/-- The centroids of a subspace. -/
abbrev Codebook := List (List ℚ)

/-- `choose_multiple` with the random numbers of a call: some of the elements,
as many as are asked for and as there are. -/
structure Sampler where
  choose : Nat → List (List ℚ) → Nat → List (List ℚ)
  mem_of_chosen : ∀ call data count,
    ∀ chosen ∈ choose call data count, chosen ∈ data
  length_chosen : ∀ call data count,
    (choose call data count).length = min count data.length

/-- `f32::MAX`. -/
def f32Max : ℚ := 340282346638528859811704183484516925440

/-- `1e-4` as a number of single precision. -/
def changeThreshold : ℚ := 13743895 / 137438953472

/-- `&v[start..end]`; bounds behind the end panic. -/
def subvector (v : List ℚ) (start stop : Nat) : Option (List ℚ) :=
  if start ≤ stop ∧ stop ≤ v.length then
    some ((v.drop start).take (stop - start))
  else none

/-! ## k-means -/

/-- The sums and the counts of an assignment step. -/
structure Clusters where
  sums : List (List ℚ)
  counts : List Int32

/-- A centroid after an update step, and whether it has changed. -/
def updateCentroid (centroid sum : List ℚ) (count : Int32) :
    List ℚ × Bool :=
  if 0 < count.toInt then
    let updated := sum.map fun x => x / (count.toInt : ℚ)
    (updated, (centroid.zipWith (fun old value => old - value) updated).any
      fun difference => changeThreshold < |difference|)
  else (centroid, false)

section

variable [Platform] (target : Target) (sqrt : ℚ → ℚ)

/-- `count += 1` on an `i32`. -/
def incrementI32 (count : Int32) : Option Int32 :=
  if count.toInt + 1 < 2147483648 then some (count + 1)
  else if Platform.overflowChecks then none
  else some (count + 1)

/-- Adds a point to its nearest centroid; a centroid that does not exist
panics. -/
def assign (centroids : Codebook) (clusters : Clusters) (point : List ℚ) :
    Option Clusters := do
  let dists ← centroids.mapM (euclideanDistanceSimd target sqrt point)
  let bestK := argmin f32Max dists
  let sum ← clusters.sums[bestK]?
  let count ← clusters.counts[bestK]?
  let count ← incrementI32 count
  pure
    { sums := clusters.sums.set bestK (sum.zipWith (fun x y => x + y) point)
      counts := clusters.counts.set bestK count }

/-- The rounds of the training. -/
def iterate (data : List (List ℚ)) (dim : Nat) :
    Nat → Codebook → Option Codebook
  | 0, centroids => some centroids
  | rounds + 1, centroids => do
      let clusters ← data.foldlM (assign target sqrt centroids)
        { sums := List.replicate centroids.length (List.replicate dim 0)
          counts := List.replicate centroids.length 0 }
      let updated := List.zipWith (fun centroid cluster =>
          updateCentroid centroid cluster.1 cluster.2)
        centroids (clusters.sums.zip clusters.counts)
      if updated.any Prod.snd then
        iterate data dim rounds (updated.map Prod.fst)
      else some (updated.map Prod.fst)

/-- `train_kmeans` of a call; no data panics. -/
def trainKmeans (sampler : Sampler) (call : Nat) (data : List (List ℚ))
    (k maxIters : Nat) : Option (Except Bytes Codebook) :=
  if data.length < k then
    some (.error (text "Not enough data to train k-means (needed " ++
      natToString k ++ text ", got " ++ natToString data.length ++ text ")"))
  else do
    let first ← data[0]?
    let centroids ← iterate target sqrt data first.length maxIters
      (sampler.choose call data k)
    pure (.ok centroids)

end

/-! ## The quantizer -/

structure ProductQuantizer where
  dimension : Nat
  numSubspaces : Nat
  numClusters : Nat
  subspaceDim : Nat
  codebooks : List Codebook

namespace ProductQuantizer

section

variable [Platform] (target : Target) (sqrt : ℚ → ℚ) (sampler : Sampler)

/-- The codebooks of subspaces, up to the first error. -/
def trainSubspaces (vectors : List (List ℚ)) (subspaceDim numClusters : Nat) :
    List Nat → Option (Except Bytes (List Codebook))
  | [] => some (.ok [])
  | m :: rest => do
      let start := m * subspaceDim
      let subspaceVectors ← vectors.mapM fun v =>
        subvector v start (start + subspaceDim)
      match ← trainKmeans target sqrt sampler m subspaceVectors numClusters
          10 with
      | .error error => pure (.error error)
      | .ok centroids => do
          match ← trainSubspaces vectors subspaceDim numClusters rest with
          | .error error => pure (.error error)
          | .ok codebooks => pure (.ok (centroids :: codebooks))

def train (vectors : List (List ℚ)) (numSubspaces numClusters : Nat) :
    Option (Except Bytes ProductQuantizer) :=
  match vectors with
  | [] => some (.error (text "Cannot train PQ on empty vector set"))
  | first :: _ =>
      let dimension := first.length
      if numSubspaces = 0 then none
      else if dimension % numSubspaces ≠ 0 then
        some (.error (text "Dimension " ++ natToString dimension ++
          text " must be divisible by num_subspaces " ++
          natToString numSubspaces))
      else do
        let subspaceDim := dimension / numSubspaces
        match ← trainSubspaces target sqrt sampler vectors subspaceDim
            numClusters (List.range numSubspaces) with
        | .error error => pure (.error error)
        | .ok codebooks => pure (.ok
            { dimension := dimension
              numSubspaces := numSubspaces
              numClusters := numClusters
              subspaceDim := subspaceDim
              codebooks := codebooks })

end

section

variable (target : Target) (sqrt : ℚ → ℚ) (pq : ProductQuantizer)

/-- The part of a vector in a subspace. -/
def part (v : List ℚ) (m : Nat) : Option (List ℚ) :=
  subvector v (m * pq.subspaceDim) (m * pq.subspaceDim + pq.subspaceDim)

/-- The distances of a part of a vector from the centroids. -/
def centroidDistances (v : List ℚ) (m : Nat) : Option (List ℚ) := do
  let subspaceVec ← pq.part v m
  let codebook ← pq.codebooks[m]?
  codebook.mapM (euclideanDistanceSimd target sqrt subspaceVec)

def encode (vector : List ℚ) : Option Bytes :=
  (List.range pq.numSubspaces).mapM fun m => do
    let dists ← pq.centroidDistances target sqrt vector m
    pure (.ofNat (argmin f32Max dists))

def distanceAdc (query : List ℚ) (code : Bytes) : Option ℚ := do
  let totalDistSq ← (List.range pq.numSubspaces).foldlM (fun total m => do
    let querySubspace ← pq.part query m
    let codebook ← pq.codebooks[m]?
    let centroid ← codebook[(← code[m]?).toNat]?
    let d ← euclideanDistanceSimd target sqrt querySubspace centroid
    pure (total + d * d)) 0
  pure (sqrt totalDistSq)

def computeDistanceTable (query : List ℚ) : Option (List (List ℚ)) :=
  (List.range pq.numSubspaces).mapM (pq.centroidDistances target sqrt query)

def distanceWithTable (table : List (List ℚ)) (code : Bytes) : Option ℚ := do
  let totalDistSq ← (List.range pq.numSubspaces).foldlM (fun total m => do
    let distances ← table[m]?
    let d ← distances[(← code[m]?).toNat]?
    pure (total + d * d)) 0
  pure (sqrt totalDistSq)

end

end ProductQuantizer

/-!
## Product quantization of the inverted lists

The second implementation: it takes vectors one after the other in one slice,
compares squares of distances, and trains from evenly spaced points.
-/

/-- `(a - b).powi(2)`, summed up. -/
def squaredDistance (a b : List ℚ) : ℚ :=
  (a.zipWith (fun x y => (x - y) ^ 2) b).sum

/-- The place of the nearest centroid, beginning with infinity. -/
def nearestCentroid (centroids : Codebook) (point : List ℚ) : Nat :=
  argmin ⊤ (centroids.map fun centroid =>
    (squaredDistance point centroid : WithTop ℚ))

/-! ## k-means -/

/-- The sums and the counts of an assignment. -/
structure Assignment where
  sums : List (List ℚ)
  counts : List Nat

section

variable [Platform]

/-- The points that the training starts with; no centroids or no points
panic. -/
def initialCentroids (points : List (List ℚ)) (k : Nat) : Option Codebook :=
  (List.range k).mapM fun i => do
    let scaled ← usize (i * points.length : Nat)
    if points.length = 0 then none
    else points[scaled / k % points.length]?

end

def addPoint (centroids : Codebook) (assignment : Assignment)
    (point : List ℚ) : Option Assignment := do
  let cluster := nearestCentroid centroids point
  let count ← assignment.counts[cluster]?
  let sum ← assignment.sums[cluster]?
  pure
    { sums := assignment.sums.set cluster (sum.zipWith (fun x y => x + y) point)
      counts := assignment.counts.set cluster (count + 1) }

/-- One round: all points are assigned before a centroid is moved. -/
def moveCentroids (points : List (List ℚ)) (dim : Nat)
    (centroids : Codebook) : Option Codebook := do
  let assignment ← points.foldlM (addPoint centroids)
    { sums := List.replicate centroids.length (List.replicate dim 0)
      counts := List.replicate centroids.length 0 }
  pure (List.zipWith (fun centroid cluster =>
      if 0 < cluster.2 then cluster.1.map fun x => x / (cluster.2 : ℚ)
      else centroid)
    centroids (assignment.sums.zip assignment.counts))

def kmeansRounds (points : List (List ℚ)) (dim : Nat) :
    Nat → Codebook → Option Codebook
  | 0, centroids => some centroids
  | rounds + 1, centroids => do
      kmeansRounds points dim rounds (← moveCentroids points dim centroids)

/-- The data are points of the dimension; a dimension of zero panics. -/
def kmeans [Platform] (data : List ℚ) (dim k nIter : Nat) :
    Option Codebook :=
  if dim = 0 then none
  else do
    let points := rowsOf dim data
    kmeansRounds points dim nIter (← initialCentroids points k)

/-! ## The quantizer -/

structure PqQuantizer where
  dim : Nat
  m : Nat
  dsub : Nat
  k : Nat
  codebooks : List Codebook
  trained : Bool

namespace PqQuantizer

section

variable [Platform]

/-- `1 << nbits`, which wraps the number of bits around or panics. -/
def shiftedOne (nbits : Nat) : Option Nat :=
  if nbits < 64 then some (2 ^ nbits)
  else if Platform.overflowChecks then none
  else some (2 ^ (nbits % 64))

/-- A dimension that is not divisible panics. -/
def new (dim m nbits : Nat) : Option PqQuantizer :=
  if m = 0 ∨ dim % m ≠ 0 then none
  else do
    let k ← shiftedOne nbits
    let dsub := dim / m
    pure
      { dim := dim
        m := m
        dsub := dsub
        k := k
        codebooks := List.replicate m
          (List.replicate k (List.replicate dsub 0))
        trained := false }

/-- The parts of all vectors in a subspace, one after the other. -/
def subvectors (pq : PqQuantizer) (vectors : List ℚ) (sub : Nat) :
    List ℚ :=
  (rowsOf pq.dim vectors).flatMap fun row =>
    (row.drop (sub * pq.dsub)).take pq.dsub

/-- Too few vectors panic. -/
def train (pq : PqQuantizer) (vectors : List ℚ) (nIter : Nat) :
    Option PqQuantizer :=
  if pq.dim = 0 ∨ vectors.length / pq.dim < pq.k then none
  else do
    let codebooks ← (List.range pq.m).mapM fun sub =>
      kmeans (pq.subvectors vectors sub) pq.dsub pq.k nIter
    pure { pq with codebooks := codebooks, trained := true }

end

variable (pq : PqQuantizer)

/-- The part of a vector in a subspace. -/
def part (v : List ℚ) (sub : Nat) : Option (List ℚ) :=
  subvector v (sub * pq.dsub) (sub * pq.dsub + pq.dsub)

def encodeRow (row : List ℚ) : Option Bytes :=
  (List.range pq.m).mapM fun sub => do
    let subvec ← pq.part row sub
    let codebook ← pq.codebooks[sub]?
    pure (.ofNat (nearestCentroid codebook subvec))

def encode (vectors : List ℚ) : Option Bytes :=
  if pq.dim = 0 then none
  else do
    let codes ← (rowsOf pq.dim vectors).mapM pq.encodeRow
    pure codes.flatten

/-- The centroid of a code; one that does not exist panics. -/
def pick (codes : Bytes) (sub : Nat) : Option (List ℚ) := do
  let codebook ← pq.codebooks[sub]?
  codebook[(← codes[sub]?).toNat]?

def decodeRow (codes : Bytes) : Option (List ℚ) := do
  let centroids ← (List.range pq.m).mapM (pq.pick codes)
  pure centroids.flatten

def decode (codes : Bytes) : Option (List ℚ) :=
  if pq.m = 0 then none
  else do
    let vectors ← (rowsOf pq.m codes).mapM pq.decodeRow
    pure vectors.flatten

/-- A table row has a place for each of `k` centroids. -/
def tableRow (query : List ℚ) (sub : Nat) : Option (List ℚ) := do
  let subquery ← pq.part query sub
  let codebook ← pq.codebooks[sub]?
  if codebook.length ≤ pq.k then
    pure (codebook.map (squaredDistance subquery) ++
      List.replicate (pq.k - codebook.length) 0)
  else none

def computeDistanceTable (query : List ℚ) : Option (List (List ℚ)) :=
  (List.range pq.m).mapM (pq.tableRow query)

/-- Adds the distance of a code, which its row of the table has. -/
def adcStep (table : List (List ℚ)) (codes : Bytes) (dist : ℚ) (sub : Nat) :
    Option ℚ := do
  let code ← codes[sub]?
  let row ← table[sub]?
  let distance ← row[code.toNat]?
  pure (dist + distance)

def computeDistanceAdc (table : List (List ℚ)) (codes : Bytes) : Option ℚ :=
  (List.range pq.m).foldlM (adcStep table codes) 0

end PqQuantizer

end RedVector.Quantization
