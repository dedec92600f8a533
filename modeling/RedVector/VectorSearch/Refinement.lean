import RedVector.VectorSearch.Operations

/-!
# A vector index over its operations

Until it switches, an index answers as the map of its vectors; from then on, as
the graph of the operations since.
-/

namespace RedVector.VectorSearch

open Effect

section

variable [VectorPlatform]

namespace VectorIndexBackend

/-- The backend has served these operations. -/
def Serves (backend : VectorIndexBackend) (dimension : Nat)
    (metric : VectorMetric) (operations seen : List Operation) : Prop :=
  match backend with
  | .linear index =>
      index.vectors = contents dimension operations ∧
        index.dimension = dimension ∧ index.metric = metric ∧
        seen = operations
  | .hnsw index => ∃ points, index.Holds dimension metric seen points

variable {backend : VectorIndexBackend} {dimension : Nat}
  {metric : VectorMetric} {operations seen : List Operation}

theorem Serves.add
    (serves : backend.Serves dimension metric operations seen)
    (docId : DocId) {vector : Vector32} (fits : vector.length = dimension) :
    ∃ after, backend.add docId vector = .ok after ∧
      after.Serves dimension metric (operations ++ [.add docId vector])
        (seen ++ [.add docId vector]) := by
  cases backend with
  | linear index =>
      obtain ⟨vectors, sameDimension, sameMetric, all⟩ := serves
      refine ⟨.linear { index with
        vectors := index.vectors.insert docId vector }, ?_, ?_⟩
      · simp [VectorIndexBackend.add, LinearScanIndex.add, sameDimension, fits,
          Except.map]
      · refine ⟨?_, sameDimension, sameMetric, by rw [all]⟩
        rw [contents_concat, Operation.perform, if_pos fits, ← vectors]
  | hnsw index =>
      obtain ⟨points, holds⟩ := serves
      obtain ⟨after, points, inserted, -, holds⟩ := holds.insert docId fits
      refine ⟨.hnsw after, ?_, points, holds⟩
      rw [VectorIndexBackend.add, inserted]
      rfl

theorem Serves.refuse
    (serves : backend.Serves dimension metric operations seen)
    (docId : DocId) {vector : Vector32} (misfits : vector.length ≠ dimension) :
    backend.add docId vector =
        .error (dimensionMismatch (text "Vector") dimension vector.length) ∧
      backend.Serves dimension metric (operations ++ [.add docId vector])
        (seen ++ [.add docId vector]) := by
  cases backend with
  | linear index =>
      obtain ⟨vectors, sameDimension, sameMetric, all⟩ := serves
      constructor
      · simp [VectorIndexBackend.add, LinearScanIndex.add, sameDimension,
          misfits, Except.map]
      · refine ⟨?_, sameDimension, sameMetric, by rw [all]⟩
        rw [contents_concat, Operation.perform, if_neg misfits, ← vectors]
  | hnsw index =>
      obtain ⟨points, holds⟩ := serves
      constructor
      · simp [VectorIndexBackend.add, HNSWIndex.insert, holds.sameDimension,
          misfits, Except.map]
      · exact ⟨points, holds.refuse docId misfits⟩

theorem Serves.remove
    (serves : backend.Serves dimension metric operations seen)
    (docId : DocId) :
    (backend.remove docId).Serves dimension metric
      (operations ++ [.remove docId]) (seen ++ [.remove docId]) := by
  cases backend with
  | linear index =>
      obtain ⟨vectors, sameDimension, sameMetric, all⟩ := serves
      refine ⟨?_, sameDimension, sameMetric, by rw [all]⟩
      rw [contents_concat, Operation.perform, ← vectors]
      rfl
  | hnsw index =>
      obtain ⟨points, holds⟩ := serves
      exact ⟨points, holds.remove docId⟩

end VectorIndexBackend

/-- The index is as its operations leave it. -/
structure VectorIndex.Serves (index : VectorIndex)
    (operations seen : List Operation) : Prop where
  backend : index.backend.Serves index.dimension index.metric operations seen
  suffix : seen <:+ operations
  size : Alternating index.dimension operations →
    index.size = (contents index.dimension operations).keys.card

namespace VectorIndex

variable {index : VectorIndex} {operations seen : List Operation}

theorem serves_start (dimension : Nat) (metric : VectorMetric)
    (threshold : Nat) :
    (withThreshold dimension metric threshold).Serves [] [] where
  backend := ⟨rfl, rfl, rfl, rfl⟩
  suffix := List.suffix_rfl
  size := fun _ => rfl

/-- What stays as it is when an index switches. -/
theorem prepared_same (index : VectorIndex) :
    let prepared := if index.migrates then index.migrateToHnsw else index
    prepared.dimension = index.dimension ∧ prepared.metric = index.metric ∧
      prepared.size = index.size ∧
      prepared.hnswThreshold = index.hnswThreshold := by
  dsimp only
  split
  · exact ⟨rfl, rfl, rfl, rfl⟩
  · exact ⟨rfl, rfl, rfl, rfl⟩

theorem prepared_serves (serves : index.Serves operations seen) :
    (if index.migrates then index.migrateToHnsw else index).backend.Serves
      index.dimension index.metric operations
      (if index.migrates then [] else seen) := by
  split
  · exact ⟨[], HNSWIndex.Holds.new index.dimension index.metric⟩
  · exact serves.backend

theorem serve_suffix (serves : index.Serves operations seen)
    (operation : Operation) :
    index.serve seen operation <:+ operations ++ [operation] := by
  unfold serve
  split
  · exact List.suffix_append operations [operation]
  · obtain ⟨earlier, same⟩ := serves.suffix
    exact ⟨earlier, by rw [← same, List.append_assoc]⟩

theorem card_add
    {vectors : HashMap DocId Vector32} {docId : DocId}
    (vector : Vector32) (absent : docId ∉ vectors) :
    (vectors.insert docId vector).keys.card = vectors.keys.card + 1 := by
  rw [keys_insert, Finset.card_insert_of_notMem]
  rwa [Finmap.mem_keys]

/-- One more operation keeps the index as its operations leave it. -/
theorem apply_serves (serves : index.Serves operations seen)
    (operation : Operation) :
    (index.apply operation).2.Serves (operations ++ [operation])
        (index.serve seen operation) ∧
      (index.apply operation).2.dimension = index.dimension ∧
      (index.apply operation).2.metric = index.metric := by
  have suffix := serve_suffix serves operation
  cases operation with
  | add docId vector =>
      obtain ⟨sameDimension, sameMetric, sameSize, -⟩ := prepared_same index
      have prepared := prepared_serves serves
      simp only [apply, VectorIndex.add]
      by_cases fits : vector.length = index.dimension
      · obtain ⟨after, added, served⟩ := prepared.add docId fits
        rw [added]
        refine ⟨⟨?_, suffix, ?_⟩, sameDimension, sameMetric⟩
        · rw [sameDimension, sameMetric]
          exact served
        · intro alternating
          rw [sameDimension] at alternating ⊢
          obtain ⟨alternating, fresh⟩ := alternating.concat
          rw [contents_concat, Operation.perform, if_pos fits,
            card_add vector (fresh fits), ← serves.size alternating, sameSize]
      · obtain ⟨refused, served⟩ := prepared.refuse docId fits
        rw [refused]
        refine ⟨⟨?_, suffix, ?_⟩, sameDimension, sameMetric⟩
        · rw [sameDimension, sameMetric]
          exact served
        · intro alternating
          rw [sameDimension] at alternating ⊢
          obtain ⟨alternating, -⟩ := alternating.concat
          rw [contents_concat, Operation.perform, if_neg fits,
            ← serves.size alternating, sameSize]
  | remove docId =>
      refine ⟨⟨serves.backend.remove docId, suffix, ?_⟩, rfl, rfl⟩
      intro alternating
      obtain ⟨alternating, present⟩ := alternating.concat
      have member : docId ∈
          (contents index.dimension operations).keys :=
        Finmap.mem_keys.mpr present
      simp only [apply, VectorIndex.remove]
      rw [contents_concat, Operation.perform, Finmap.keys_erase,
        Finset.card_erase_of_mem member, ← serves.size alternating]

theorem run_serves (serves : index.Serves operations seen)
    (rest : List Operation) :
    (index.run rest).Serves (operations ++ rest)
        (index.served seen rest) ∧
      (index.run rest).dimension = index.dimension ∧
      (index.run rest).metric = index.metric := by
  induction rest generalizing index operations seen with
  | nil => simpa [run, served] using serves
  | cons operation rest ih =>
      obtain ⟨serves, sameDimension, sameMetric⟩ :=
        apply_serves serves operation
      obtain ⟨serves, stillDimension, stillMetric⟩ := ih serves
      rw [List.append_assoc] at serves
      exact ⟨serves, stillDimension.trans sameDimension,
        stillMetric.trans sameMetric⟩

end VectorIndex

namespace VectorIndexBackend

/-- The backend knows the vector of a number. -/
def Knows (backend : VectorIndexBackend) (docId : DocId) : Prop :=
  match backend with
  | .linear index => docId ∈ index.vectors
  | .hnsw index => docId ∈ index.docIdToId

/-- How the backend scores a vector. -/
def score (backend : VectorIndexBackend) (metric : VectorMetric)
    (query vector : Vector32) : F32 :=
  match backend with
  | .linear _ => LinearScanIndex.similarity metric query vector
  | .hnsw _ =>
      HNSWIndex.similarity metric (VectorPlatform.distCosine query vector)

end VectorIndexBackend

/-- An index is the map of these vectors, whatever its backend is. -/
structure RefinesMap (index : VectorIndex) (metric : VectorMetric)
    (vectors : HashMap DocId Vector32) : Prop where
  len : index.len = vectors.keys.card
  found : ∀ listing query topK results,
    index.search listing query topK = .ok results →
    results.length ≤ topK ∧ (results.map Prod.fst).Nodup ∧
      ∀ result ∈ results, ∃ vector,
        vectors.lookup result.1 = some vector ∧
        result.2 = index.backend.score metric query vector
  all : index.backend.isHnsw = false → ∀ listing query topK results,
    index.search listing query topK = .ok results →
    results.length = min topK vectors.keys.card
  kept : ∀ docId ∈ vectors, index.backend.Knows docId

/-- How an index answers after its operations, of which its backend has served
the last ones. -/
structure Answers (index : VectorIndex) (metric : VectorMetric)
    (dimension : Nat) (operations seen : List Operation) : Prop where
  len : Alternating dimension operations →
    index.len = (contents dimension operations).keys.card
  linear : index.backend.isHnsw = false → seen = operations ∧
    ∀ listing query topK, query.length = dimension →
      ∃ results, index.search listing query topK = .ok results ∧
        results.length =
          min topK (contents dimension operations).keys.card ∧
        (results.map Prod.fst).Nodup ∧
        ∀ result ∈ results, ∃ vector,
          (contents dimension operations).lookup result.1 = some vector ∧
          result.2 = LinearScanIndex.similarity metric query vector
  hnsw : index.backend.isHnsw = true → seen <:+ operations ∧
    ∀ listing query topK, query.length = dimension →
      ∃ results, index.search listing query topK = .ok results ∧
        results.length ≤ max topK 1 ∧
        (∀ result ∈ results, ∃ vector, .add result.1 vector ∈ seen ∧
          result.2 = HNSWIndex.similarity metric
            (VectorPlatform.distCosine query vector)) ∧
        (AddsOnce seen → (results.map Prod.fst).Nodup ∧
          ∀ result ∈ results, ∃ vector,
            (contents dimension operations).lookup result.1 = some vector ∧
            result.2 = HNSWIndex.similarity metric
              (VectorPlatform.distCosine query vector))

/-- An index is the map of its vectors until it switches, and then the graph
of the operations since. -/
theorem vectorIndex_answers (sound : HnswSound) (dimension : Nat)
    (metric : VectorMetric) (threshold : Nat) (operations : List Operation) :
    Answers ((VectorIndex.withThreshold dimension metric threshold).run
        operations) metric dimension operations
      ((VectorIndex.withThreshold dimension metric threshold).served []
        operations) := by
  obtain ⟨⟨backend, suffix, size⟩, sameDimension, sameMetric⟩ :=
    VectorIndex.run_serves
      (VectorIndex.serves_start dimension metric threshold) operations
  generalize (VectorIndex.withThreshold dimension metric threshold).run
    operations = index at *
  change index.dimension = dimension at sameDimension
  change index.metric = metric at sameMetric
  rw [sameDimension] at size
  rw [sameDimension, sameMetric] at backend
  rw [List.nil_append] at backend suffix size
  constructor
  · exact size
  · intro isLinear
    cases isBackend : index.backend with
    | hnsw graph =>
        rw [isBackend] at isLinear
        cases isLinear
    | linear scan =>
        rw [isBackend] at backend
        obtain ⟨vectors, scanDimension, scanMetric, all⟩ := backend
        refine ⟨all, ?_⟩
        intro listing query topK fits
        unfold VectorIndex.search
        rw [isBackend, ← vectors, ← scanMetric]
        exact LinearScanIndex.search_finds listing
          (fits.trans scanDimension.symm) topK
  · intro isHnsw
    refine ⟨suffix, ?_⟩
    cases isBackend : index.backend with
    | linear scan =>
        rw [isBackend] at isHnsw
        cases isHnsw
    | hnsw graph =>
        rw [isBackend] at backend
        obtain ⟨points, holds⟩ := backend
        intro listing query topK fits
        unfold VectorIndex.search
        rw [isBackend]
        obtain ⟨results, found, atMost, added, once⟩ :=
          HNSWIndex.search_finds sound holds fits topK
        refine ⟨results, found, atMost, added, ?_⟩
        intro addsOnce
        obtain ⟨nodup, latest⟩ := once addsOnce
        refine ⟨nodup, ?_⟩
        intro result member
        obtain ⟨vector, present, score⟩ := latest result member
        obtain ⟨earlier, same⟩ := suffix
        refine ⟨vector, ?_, score⟩
        rw [← same]
        exact contents_append earlier present

end

/-! ## Over the threshold -/

section

attribute [local instance] VectorPlatform.integral

/-- Three vectors for an index that switches at two. -/
def threeVectors : List Operation :=
  [.add 1 (integers [1, 0, 0]), .add 2 (integers [0, 1, 0]),
    .add 3 (integers [0, 0, 1])]

/-- The vectors below the threshold are lost; a number that is added again
counts twice, one that is removed from the graph is still found, and a search
of the graph for nothing finds something. -/
theorem vectorIndex_loses :
    (¬∀ (dimension : Nat) (metric : VectorMetric) (threshold : Nat)
      (operations : List Operation),
      RefinesMap ((VectorIndex.withThreshold dimension metric threshold).run
        operations) metric (contents dimension operations)) ∧
    ((VectorIndex.withThreshold 1 .cosine 2).run
      [.add 1 (integers [1]), .add 1 (integers [2])]).len = 2 ∧
    ∀ listing, (((VectorIndex.withThreshold 3 .cosine 2).run
        (threeVectors ++ [.remove 3])).search listing (integers [0, 0, 1])
          0) =
      .ok [(3, (1 : Int))] := by
  refine ⟨?_, rfl, ?_⟩
  · intro refines
    have first : (1 : DocId) ∈ contents 3 threeVectors := by decide
    have known := (refines 3 .cosine 2 threeVectors).kept 1 first
    have lost : (1 : DocId) ∉
        (Finmap.singleton 3 0 : HashMap DocId Nat) := by
      decide
    exact lost known
  · intro listing
    let found : List (DocId × F32) :=
      ((nearest [([0, 0, 1], 0)] [0, 0, 1] 1).map fun point =>
        (point.2, squaredDistance [0, 0, 1] point.1)).filterMap
        fun neighbour => ((Finmap.singleton 0 3 : HashMap Nat DocId).lookup
          neighbour.1).map fun docId =>
            (docId, HNSWIndex.similarity .cosine neighbour.2)
    have isFound : found = [(3, (1 : Int))] := by
      have one : nearest [([0, 0, 1], 0)] [0, 0, 1] 1 =
          [([0, 0, 1], 0)] := by
        simp [nearest]
      simp only [found, one]
      rfl
    calc
      _ = Except.ok (sortDescending found) := rfl
      _ = Except.ok (sortDescending [(3, (1 : Int))]) := by rw [isFound]
      _ = Except.ok [(3, (1 : Int))] := by simp [sortDescending]

/-- The last vector of the three is found in the graph. -/
theorem vectorIndex_answers_three :
    Answers ((VectorIndex.withThreshold 3 .cosine 2).run threeVectors) .cosine
      3 threeVectors
      [.add 3 (integers [0, 0, 1])] :=
  vectorIndex_answers hnswSound_integral 3 .cosine 2 threeVectors

end

end RedVector.VectorSearch
