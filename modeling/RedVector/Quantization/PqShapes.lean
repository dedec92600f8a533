import RedVector.Kernels.Chunked
import RedVector.Quantization.ProductQuantizer
import RedVector.Util.Loops

/-!
# The shapes of trained codebooks

Whatever the training moves, every subspace has a codebook of centroids of its
dimension.
-/

namespace RedVector.Quantization

open Kernels Util

/-- All vectors have a length. -/
def Wide (width : Nat) (vectors : List (List ℚ)) : Prop :=
  ∀ vector ∈ vectors, vector.length = width

/-- One codebook for each subspace. -/
structure Shaped (codebooks : List Codebook) (subspaces width : Nat) :
    Prop where
  length : codebooks.length = subspaces
  wide : ∀ codebook ∈ codebooks, Wide width codebook

theorem Wide.set {width : Nat} {vectors : List (List ℚ)} {vector : List ℚ}
    (wide : Wide width vectors) (own : vector.length = width) (place : Nat) :
    Wide width (vectors.set place vector) := by
  intro other member
  rcases List.mem_or_eq_of_mem_set member with before | rfl
  · exact wide other before
  · exact own

theorem wide_replicate (count width : Nat) :
    Wide width (List.replicate count (List.replicate width 0)) := by
  intro vector member
  rw [List.eq_of_mem_replicate member, List.length_replicate]

theorem subvector_length {v part : List ℚ} {start stop : Nat}
    (taken : subvector v start stop = some part) :
    part.length = stop - start := by
  unfold subvector at taken
  split at taken
  · cases taken
    rw [List.length_take, List.length_drop]
    omega
  · cases taken

/-! ## The first implementation -/

section

variable [Platform] {target : Target} {sqrt : ℚ → ℚ} {width : Nat}

omit [Platform] in
theorem updateCentroid_length {centroid sum : List ℚ} (count : Int32)
    (own : centroid.length = width) (summed : sum.length = width) :
    (updateCentroid centroid sum count).1.length = width := by
  unfold updateCentroid
  split
  · rw [List.length_map, summed]
  · exact own

/-- What an assignment step keeps of its sums. -/
structure Clusters.Sized (clusters : Clusters) (k width : Nat) : Prop where
  sums : clusters.sums.length = k
  counts : clusters.counts.length = k
  wide : Wide width clusters.sums

theorem assign_sized {centroids : Codebook} {k : Nat} {point : List ℚ}
    (own : point.length = width) {before after : Clusters}
    (sized : before.Sized k width)
    (assigned : assign target sqrt centroids before point = some after) :
    after.Sized k width := by
  obtain ⟨dists, -, rest⟩ := Option.bind_eq_some_iff.mp assigned
  obtain ⟨sum, isSum, rest⟩ := Option.bind_eq_some_iff.mp rest
  obtain ⟨count, -, rest⟩ := Option.bind_eq_some_iff.mp rest
  obtain ⟨next, -, rest⟩ := Option.bind_eq_some_iff.mp rest
  cases rest
  have summed := sized.wide sum (List.mem_of_getElem? isSum)
  refine ⟨?_, ?_, sized.wide.set ?_ _⟩
  · rw [List.length_set, sized.sums]
  · rw [List.length_set, sized.counts]
  · rw [List.length_zipWith, summed, own, Nat.min_self]

theorem iterate_wide {data : List (List ℚ)} (points : Wide width data)
    {rounds : Nat} {centroids final : Codebook} (wide : Wide width centroids)
    (iterates : iterate target sqrt data width rounds centroids =
      some final) :
    final.length = centroids.length ∧ Wide width final := by
  induction rounds generalizing centroids with
  | zero =>
      cases iterates
      exact ⟨rfl, wide⟩
  | succ rounds ih =>
      rw [iterate] at iterates
      obtain ⟨clusters, assigned, rest⟩ :=
        Option.bind_eq_some_iff.mp iterates
      have sized : clusters.Sized centroids.length width :=
        foldlM_invariant (fun point member before after sized =>
            assign_sized (points point member) sized)
          ⟨List.length_replicate, List.length_replicate,
            wide_replicate _ _⟩ assigned
      have length : (List.zipWith (fun centroid cluster =>
          updateCentroid centroid cluster.1 cluster.2) centroids
            (clusters.sums.zip clusters.counts)).length =
              centroids.length := by
        rw [List.length_zipWith, List.length_zip, sized.sums, sized.counts,
          Nat.min_self, Nat.min_self]
      have updated : Wide width ((List.zipWith (fun centroid cluster =>
          updateCentroid centroid cluster.1 cluster.2) centroids
            (clusters.sums.zip clusters.counts)).map Prod.fst) := by
        intro vector member
        obtain ⟨pair, isPair, rfl⟩ := List.mem_map.mp member
        obtain ⟨place, found⟩ := List.mem_iff_getElem?.mp isPair
        rw [List.getElem?_zipWith_eq_some] at found
        obtain ⟨centroid, ⟨sum, count⟩, isCentroid, isCluster, rfl⟩ := found
        have isSum := (List.of_mem_zip (List.mem_of_getElem? isCluster)).1
        exact updateCentroid_length count
          (wide centroid (List.mem_of_getElem? isCentroid))
          (sized.wide sum isSum)
      dsimp only at rest
      split at rest
      · obtain ⟨same, stays⟩ := ih updated rest
        rw [List.length_map, length] at same
        exact ⟨same, stays⟩
      · cases rest
        rw [List.length_map]
        exact ⟨length, updated⟩

namespace ProductQuantizer

variable {sampler : Sampler}

theorem trainSubspaces_shaped {vectors : List (List ℚ)} {numClusters : Nat}
    {subspaces : List Nat} {codebooks : List Codebook}
    (trained : trainSubspaces target sqrt sampler vectors width numClusters
      subspaces = some (.ok codebooks)) :
    Shaped codebooks subspaces.length width := by
  induction subspaces generalizing codebooks with
  | nil =>
      cases trained
      exact ⟨rfl, fun codebook member => nomatch member⟩
  | cons m rest ih =>
      rw [trainSubspaces] at trained
      obtain ⟨data, extracts, trained⟩ := Option.bind_eq_some_iff.mp trained
      obtain ⟨result, clusters, trained⟩ := Option.bind_eq_some_iff.mp trained
      cases result with
      | error error => cases trained
      | ok centroids =>
          obtain ⟨others, later, trained⟩ :=
            Option.bind_eq_some_iff.mp trained
          cases others with
          | error error => cases trained
          | ok books =>
              cases trained
              obtain ⟨length, wide⟩ := ih later
              refine ⟨congrArg (· + 1) length, ?_⟩
              have points : Wide width data := by
                intro vector member
                obtain ⟨place, found⟩ := List.mem_iff_getElem?.mp member
                obtain ⟨inside, rfl⟩ := List.getElem?_eq_some_iff.mp found
                have parts := forall₂_of_mapM extracts
                have taken := parts.get (i := place)
                  (by rw [parts.length_eq]; exact inside) inside
                rw [List.get_eq_getElem, List.get_eq_getElem] at taken
                exact (subvector_length taken).trans
                  (Nat.add_sub_cancel_left _ _)
              intro codebook member
              rcases List.mem_cons.mp member with rfl | after
              · unfold trainKmeans at clusters
                split at clusters
                · cases clusters
                · obtain ⟨first, isFirst, clusters⟩ :=
                    Option.bind_eq_some_iff.mp clusters
                  obtain ⟨final, iterates, clusters⟩ :=
                    Option.bind_eq_some_iff.mp clusters
                  cases clusters
                  rw [points first (List.mem_of_getElem? isFirst)] at iterates
                  exact (iterate_wide points (fun chosen isChosen =>
                    points chosen (sampler.mem_of_chosen m data numClusters
                      chosen isChosen)) iterates).2
              · exact wide codebook after

/-- What is accepted has a codebook of parts for each subspace. -/
theorem train_shaped {vectors : List (List ℚ)}
    {numSubspaces numClusters : Nat} {pq : ProductQuantizer}
    (trained : train target sqrt sampler vectors numSubspaces numClusters =
      some (.ok pq)) :
    Shaped pq.codebooks pq.numSubspaces pq.subspaceDim ∧
      pq.dimension = pq.numSubspaces * pq.subspaceDim := by
  unfold train at trained
  cases vectors with
  | nil => cases trained
  | cons first rest =>
      dsimp only at trained
      split at trained
      · cases trained
      · split at trained
        · cases trained
        · rename_i divides
          obtain ⟨result, subspaces, trained⟩ :=
            Option.bind_eq_some_iff.mp trained
          cases result with
          | error error => cases trained
          | ok codebooks =>
              cases trained
              have shaped := trainSubspaces_shaped subspaces
              rw [List.length_range] at shaped
              refine ⟨shaped, ?_⟩
              rw [not_not] at divides
              exact (Nat.mul_div_cancel' (Nat.dvd_of_mod_eq_zero divides)).symm

end ProductQuantizer

end

/-! ## The second implementation -/

section

variable {width : Nat}

/-- What the assignment of points keeps of its sums. -/
structure Assignment.Sized (assignment : Assignment) (k width : Nat) :
    Prop where
  sums : assignment.sums.length = k
  counts : assignment.counts.length = k
  wide : Wide width assignment.sums

theorem addPoint_sized {centroids : Codebook} {k : Nat} {point : List ℚ}
    (own : point.length = width) {before after : Assignment}
    (sized : before.Sized k width)
    (added : addPoint centroids before point = some after) :
    after.Sized k width := by
  obtain ⟨count, -, rest⟩ := Option.bind_eq_some_iff.mp added
  obtain ⟨sum, isSum, rest⟩ := Option.bind_eq_some_iff.mp rest
  cases rest
  have summed := sized.wide sum (List.mem_of_getElem? isSum)
  refine ⟨?_, ?_, sized.wide.set ?_ _⟩
  · rw [List.length_set, sized.sums]
  · rw [List.length_set, sized.counts]
  · rw [List.length_zipWith, summed, own, Nat.min_self]

theorem moveCentroids_wide {points : List (List ℚ)} (isWide : Wide width points)
    {centroids moved : Codebook} (wide : Wide width centroids)
    (moves : moveCentroids points width centroids = some moved) :
    moved.length = centroids.length ∧ Wide width moved := by
  obtain ⟨assignment, assigned, rest⟩ := Option.bind_eq_some_iff.mp moves
  cases rest
  have sized : assignment.Sized centroids.length width :=
    foldlM_invariant (fun point member before after sized =>
        addPoint_sized (isWide point member) sized)
      ⟨List.length_replicate, List.length_replicate, wide_replicate _ _⟩
      assigned
  constructor
  · rw [List.length_zipWith, List.length_zip, sized.sums, sized.counts,
      Nat.min_self, Nat.min_self]
  · intro vector member
    obtain ⟨place, found⟩ := List.mem_iff_getElem?.mp member
    rw [List.getElem?_zipWith_eq_some] at found
    obtain ⟨centroid, ⟨sum, count⟩, isCentroid, isCluster, rfl⟩ := found
    dsimp only
    split
    · rw [List.length_map]
      exact sized.wide sum
        (List.of_mem_zip (List.mem_of_getElem? isCluster)).1
    · exact wide centroid (List.mem_of_getElem? isCentroid)

theorem kmeansRounds_wide {points : List (List ℚ)}
    (isWide : Wide width points) {rounds : Nat} {centroids final : Codebook}
    (wide : Wide width centroids)
    (moves : kmeansRounds points width rounds centroids = some final) :
    final.length = centroids.length ∧ Wide width final := by
  induction rounds generalizing centroids with
  | zero =>
      cases moves
      exact ⟨rfl, wide⟩
  | succ rounds ih =>
      rw [kmeansRounds] at moves
      obtain ⟨moved, first, others⟩ := Option.bind_eq_some_iff.mp moves
      obtain ⟨same, stays⟩ := moveCentroids_wide isWide wide first
      obtain ⟨length, ends⟩ := ih stays others
      exact ⟨length.trans same, ends⟩

theorem kmeans_wide [Platform] {data : List ℚ} {k nIter : Nat}
    {centroids : Codebook}
    (trained : kmeans data width k nIter = some centroids) :
    centroids.length = k ∧ Wide width centroids := by
  unfold kmeans at trained
  split at trained
  · cases trained
  · obtain ⟨initial, starts, moves⟩ := Option.bind_eq_some_iff.mp trained
    have points : Wide width (rowsOf width data) :=
      fun row => length_of_mem_rowsOf
    obtain ⟨length, chosen⟩ := getElem?_of_mapM_range starts
    have wide : Wide width initial := by
      intro vector member
      obtain ⟨place, found⟩ := List.mem_iff_getElem?.mp member
      have inside := (List.getElem?_eq_some_iff.mp found).1
      have compute := chosen place (by omega)
      rw [found] at compute
      obtain ⟨scaled, -, compute⟩ := Option.bind_eq_some_iff.mp compute
      split at compute
      · cases compute
      · exact points vector (List.mem_of_getElem? compute)
    obtain ⟨same, stays⟩ := kmeansRounds_wide points wide moves
    exact ⟨same.trans length, stays⟩

namespace PqQuantizer

/-- What is accepted has a codebook of `k` parts for each subspace. -/
theorem train_shaped [Platform] {dim m nbits : Nat} {fresh pq : PqQuantizer}
    (created : new dim m nbits = some fresh) {vectors : List ℚ} {nIter : Nat}
    (trained : fresh.train vectors nIter = some pq) :
    Shaped pq.codebooks pq.m pq.dsub ∧
      (∀ codebook ∈ pq.codebooks, codebook.length = pq.k) ∧
        pq.dim = pq.m * pq.dsub ∧ 0 < pq.dim ∧ 0 < pq.m := by
  unfold new at created
  split at created
  · cases created
  · rename_i divides
    rw [not_or, not_not] at divides
    obtain ⟨k, -, created⟩ := Option.bind_eq_some_iff.mp created
    cases created
    unfold train at trained
    split at trained
    · cases trained
    · rename_i enough
      rw [not_or] at enough
      obtain ⟨codebooks, books, trained⟩ :=
        Option.bind_eq_some_iff.mp trained
      cases trained
      obtain ⟨length, each⟩ := getElem?_of_mapM_range books
      have all : ∀ codebook ∈ codebooks,
          codebook.length = k ∧ Wide (dim / m) codebook := by
        intro codebook member
        obtain ⟨place, found⟩ := List.mem_iff_getElem?.mp member
        have inside := (List.getElem?_eq_some_iff.mp found).1
        have compute := each place (by rw [← length]; exact inside)
        rw [found] at compute
        exact kmeans_wide compute
      refine ⟨⟨length, fun codebook member => (all codebook member).2⟩,
        fun codebook member => (all codebook member).1, ?_,
        Nat.pos_of_ne_zero enough.1, Nat.pos_of_ne_zero divides.1⟩
      exact (Nat.mul_div_cancel' (Nat.dvd_of_mod_eq_zero divides.2)).symm

end PqQuantizer

end

end RedVector.Quantization
