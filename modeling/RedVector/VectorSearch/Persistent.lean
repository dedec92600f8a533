import RedVector.Effect.Runs
import RedVector.VectorSearch.Refinement
import RedVector.VectorSearch.Storage

/-!
# Persistent vector indexes

An index in memory over a store on disk.  The vectors are stored as they are
added, the metadata of the index now and then.  Nothing here trains a
quantizer, so there is none.
-/

namespace RedVector.VectorSearch

open Effect

section

variable [VectorPlatform]

namespace VectorMetric

def name : VectorMetric → Bytes
  | .cosine => text "cosine"
  | .euclidean => text "euclidean"
  | .innerProduct => text "inner_product"

def ofName (name : Bytes) : VectorMetric :=
  if name = text "cosine" then .cosine
  else if name = text "euclidean" then .euclidean
  else if name = text "inner_product" then .innerProduct
  else .cosine

omit [VectorPlatform] in
theorem ofName_name (metric : VectorMetric) : ofName metric.name = metric := by
  cases metric with
  | cosine => decide
  | euclidean => decide
  | innerProduct => decide

end VectorMetric

structure PersistentVectorIndex where
  index : VectorIndex
  storage : RedbVectorStorage
  indexName : Bytes
  snapshotCounter : Nat
  snapshotInterval : Nat

namespace PersistentVectorIndex

/-- `new` at a path whose database has these tables; those of a new database
are empty. -/
def new (indexName : Bytes) (dimension : Nat) (metric : VectorMetric)
    (db : Tables) (snapshotInterval : Nat) : PersistentVectorIndex :=
  let storage := RedbVectorStorage.openAt db
  { index :=
      match storage.getIndexMetadata indexName with
      | some metadata =>
          .withThreshold metadata.dimension (.ofName metadata.metric) 10000
      | none => .new dimension metric
    storage := storage
    indexName := indexName
    snapshotCounter := 0
    snapshotInterval := snapshotInterval }

/-- A new index is empty; the metadata on disk, if there are any, come before
the arguments. -/
theorem new_index (indexName : Bytes) (dimension : Nat)
    (metric : VectorMetric) (db : Tables) (snapshotInterval : Nat) :
    ∃ openedDimension openedMetric,
      (new indexName dimension metric db snapshotInterval).index =
          .withThreshold openedDimension openedMetric 10000 ∧
        (db.indexConfig.lookup indexName = none →
          openedDimension = dimension ∧ openedMetric = metric) ∧
        ∀ metadata, db.indexConfig.lookup indexName = some metadata →
          openedDimension = metadata.dimension ∧
            openedMetric = .ofName metadata.metric := by
  have isOpened : (new indexName dimension metric db snapshotInterval).index =
      match db.indexConfig.lookup indexName with
      | some metadata =>
          .withThreshold metadata.dimension (.ofName metadata.metric) 10000
      | none => .new dimension metric := rfl
  rw [isOpened]
  cases db.indexConfig.lookup indexName with
  | none => exact ⟨dimension, metric, rfl, fun _ => ⟨rfl, rfl⟩, nofun⟩
  | some metadata =>
      refine ⟨metadata.dimension, .ofName metadata.metric, rfl, nofun, ?_⟩
      intro other same
      cases same
      exact ⟨rfl, rfl⟩

/-- Only the metadata. -/
def snapshot (persistent : PersistentVectorIndex) (failure : Option Bytes) :
    Except Bytes Unit × PersistentVectorIndex :=
  let metadata : IndexMetadata :=
    { dimension := persistent.index.dimension
      metric := persistent.index.metric.name
      numVectors := persistent.index.len
      m := 16
      efConstruction := 150
      efSearch := 50 }
  let (result, storage) :=
    persistent.storage.storeIndexMetadata failure persistent.indexName metadata
  (result, { persistent with storage := storage })

/-- Counts vectors that were added, and snapshots when there are enough. -/
def counted (persistent : PersistentVectorIndex) (count : Nat)
    (failure : Option Bytes) : Except Bytes Unit × PersistentVectorIndex :=
  let persistent := { persistent with
    snapshotCounter := persistent.snapshotCounter + count }
  if persistent.snapshotInterval ≤ persistent.snapshotCounter then
    match persistent.snapshot failure with
    | (.error error, persistent) => (.error error, persistent)
    | (.ok _, persistent) => (.ok (), { persistent with snapshotCounter := 0 })
  else (.ok (), persistent)

def add (persistent : PersistentVectorIndex)
    (storeFailure snapshotFailure : Option Bytes) (docId : DocId)
    (vector : Vector32) : Except Bytes Unit × PersistentVectorIndex :=
  match persistent.index.add docId vector with
  | (.error error, index) => (.error error, { persistent with index := index })
  | (.ok _, index) =>
      match persistent.storage.storeVector storeFailure docId vector with
      | (.error error, storage) =>
          (.error error,
            { persistent with index := index, storage := storage })
      | (.ok _, storage) =>
          { persistent with index := index, storage := storage }.counted 1
            snapshotFailure

/-- While the storage does not fail, an addition is one to the index in
memory. -/
theorem add_index (persistent : PersistentVectorIndex) (docId : DocId)
    (vector : Vector32) :
    (persistent.add none none docId vector).1 =
        (persistent.index.add docId vector).1 ∧
      (persistent.add none none docId vector).2.index =
        (persistent.index.add docId vector).2 := by
  unfold add
  split
  · rename_i error index failed
    rw [failed]
    exact ⟨rfl, rfl⟩
  · rename_i index added
    rw [added]
    simp only [RedbVectorStorage.storeVector, counted, snapshot,
      RedbVectorStorage.storeIndexMetadata]
    split
    · exact ⟨rfl, rfl⟩
    · exact ⟨rfl, rfl⟩

/-- The loop of `add_batch`. -/
def addEach (index : VectorIndex) :
    List (DocId × Vector32) → Except Bytes Unit × VectorIndex
  | [] => (.ok (), index)
  | (docId, vector) :: rest =>
      match index.add docId vector with
      | (.error error, index) => (.error error, index)
      | (.ok _, index) => addEach index rest

def addBatch (persistent : PersistentVectorIndex)
    (storeFailure snapshotFailure : Option Bytes)
    (vectors : List (DocId × Vector32)) :
    Except Bytes Unit × PersistentVectorIndex :=
  match addEach persistent.index vectors with
  | (.error error, index) => (.error error, { persistent with index := index })
  | (.ok _, index) =>
      match persistent.storage.storeVectorsBatch storeFailure vectors with
      | (.error error, storage) =>
          (.error error,
            { persistent with index := index, storage := storage })
      | (.ok _, storage) =>
          { persistent with index := index, storage := storage }.counted
            vectors.length snapshotFailure

/-- The stored vector stays. -/
def remove (persistent : PersistentVectorIndex) (docId : DocId) :
    Except Bytes Unit × PersistentVectorIndex :=
  let (result, index) := persistent.index.remove docId
  (result, { persistent with index := index })

def search (listing : Listing DocId) (persistent : PersistentVectorIndex)
    (query : Vector32) (topK : Nat) : Except Bytes (List (DocId × F32)) :=
  persistent.index.search listing query topK

def len (persistent : PersistentVectorIndex) : Nat :=
  persistent.index.len

end PersistentVectorIndex

/-! ## Runs -/

inductive PersistentOperation where
  | add (docId : DocId) (vector : Vector32)
  | addBatch (vectors : List (DocId × Vector32))
  | remove (docId : DocId)

namespace PersistentVectorIndex

def apply (persistent : PersistentVectorIndex)
    (storeFailure snapshotFailure : Option Bytes) :
    PersistentOperation → Except Bytes Unit × PersistentVectorIndex
  | .add docId vector =>
      persistent.add storeFailure snapshotFailure docId vector
  | .addBatch vectors =>
      persistent.addBatch storeFailure snapshotFailure vectors
  | .remove docId => persistent.remove docId

/-- An operation that succeeds. -/
def Succeeds (before : PersistentVectorIndex)
    (operation : PersistentOperation) (after : PersistentVectorIndex) : Prop :=
  ∃ storeFailure snapshotFailure,
    before.apply storeFailure snapshotFailure operation = (.ok (), after)

/-- Another index has the same dimension, metric and length and answers every
search in the same way. -/
structure Recovers (persistent reopened : PersistentVectorIndex) : Prop where
  dimension : reopened.index.dimension = persistent.index.dimension
  metric : reopened.index.metric = persistent.index.metric
  len : reopened.len = persistent.len
  search : ∀ listing query topK,
    reopened.search listing query topK =
      persistent.search listing query topK

/-- There is nothing to recover. -/
structure Bare (persistent : PersistentVectorIndex) : Prop where
  len : persistent.len = 0
  empty : ∃ scan, persistent.index.backend = .linear scan ∧ scan.vectors = ∅

end PersistentVectorIndex

namespace VectorIndexBackend

/-- The backend finds what was added to it. -/
def Finds (backend : VectorIndexBackend) (dimension : Nat)
    (metric : VectorMetric) : Prop :=
  match backend with
  | .linear scan => scan.dimension = dimension ∧ scan.metric = metric ∧
      ∀ docId vector, scan.vectors.lookup docId = some vector →
        vector.length = dimension
  | .hnsw graph => ∃ seen points,
      graph.Holds dimension metric seen points ∧ points ≠ [] ∧
        ∃ vector : Vector32, vector.length = dimension

variable {dimension : Nat} {metric : VectorMetric}

/-- A graph finds what is added to it, be it the first. -/
theorem finds_insert {graph : HNSWIndex} {seen : List Operation}
    {points : List (Vector32 × Nat)}
    (holds : graph.Holds dimension metric seen points) {docId : DocId}
    {vector : Vector32} {after : VectorIndexBackend}
    (added : add (.hnsw graph) docId vector = .ok after) :
    after.Finds dimension metric := by
  by_cases fits : vector.length = dimension
  · obtain ⟨inserted, points, isInserted, some, holds⟩ :=
      holds.insert docId fits
    simp only [add, isInserted, Except.map] at added
    cases added
    exact ⟨_, points, holds, some, vector, fits⟩
  · simp [add, HNSWIndex.insert, holds.sameDimension, fits, Except.map] at added

theorem Finds.add {backend after : VectorIndexBackend}
    (finds : backend.Finds dimension metric) {docId : DocId}
    {vector : Vector32} (added : backend.add docId vector = .ok after) :
    after.Finds dimension metric := by
  cases backend with
  | linear scan =>
      obtain ⟨sameDimension, sameMetric, lengths⟩ := finds
      by_cases fits : vector.length = dimension
      · simp only [VectorIndexBackend.add, LinearScanIndex.add, sameDimension,
          fits, ne_eq, not_true_eq_false, if_false, Except.map] at added
        cases added
        refine ⟨rfl, sameMetric, ?_⟩
        intro other found isFound
        change (scan.vectors.insert docId vector).lookup other = _ at isFound
        rw [lookup_insert] at isFound
        split at isFound
        · cases isFound
          exact fits
        · exact lengths other found isFound
      · simp [VectorIndexBackend.add, LinearScanIndex.add, sameDimension, fits,
          Except.map] at added
  | hnsw graph =>
      obtain ⟨seen, points, holds, -, -⟩ := finds
      exact finds_insert holds added

theorem Finds.remove {backend : VectorIndexBackend}
    (finds : backend.Finds dimension metric) (docId : DocId) :
    (backend.remove docId).Finds dimension metric := by
  cases backend with
  | linear scan =>
      obtain ⟨sameDimension, sameMetric, lengths⟩ := finds
      refine ⟨sameDimension, sameMetric, ?_⟩
      intro other found isFound
      change (scan.vectors.erase docId).lookup other = _ at isFound
      by_cases same : other = docId
      · rw [same, Finmap.lookup_erase] at isFound
        cases isFound
      · rw [Finmap.lookup_erase_ne same] at isFound
        exact lengths other found isFound
  | hnsw graph =>
      obtain ⟨seen, points, holds, some, vector, fits⟩ := finds
      exact ⟨_, points, holds.remove docId, some, vector, fits⟩

end VectorIndexBackend

/-- An index that finds what was added to it, under settings that stay. -/
structure VectorIndex.Finds (index : VectorIndex) (dimension : Nat)
    (metric : VectorMetric) : Prop where
  sameDimension : index.dimension = dimension
  sameMetric : index.metric = metric
  backend : index.backend.Finds dimension metric

namespace VectorIndex.Finds

variable {dimension : Nat} {metric : VectorMetric} {index after : VectorIndex}

theorem new (dimension : Nat) (metric : VectorMetric) (threshold : Nat) :
    (withThreshold dimension metric threshold).Finds dimension metric := by
  refine ⟨rfl, rfl, rfl, rfl, ?_⟩
  intro docId vector found
  cases found

theorem add (finds : index.Finds dimension metric) {docId : DocId}
    {vector : Vector32} (added : index.add docId vector = (.ok (), after)) :
    after.Finds dimension metric := by
  obtain ⟨rfl, rfl, finds⟩ := finds
  simp only [VectorIndex.add] at added
  split at added
  · cases added
  · rename_i backend isAdded
    cases added
    by_cases migrates : index.migrates = true
    · rw [if_pos migrates] at isAdded ⊢
      exact ⟨rfl, rfl, VectorIndexBackend.finds_insert (.new _ _) isAdded⟩
    · rw [if_neg migrates] at isAdded ⊢
      exact ⟨rfl, rfl, finds.add isAdded⟩

theorem remove (finds : index.Finds dimension metric) (docId : DocId) :
    (index.remove docId).2.Finds dimension metric :=
  ⟨finds.sameDimension, finds.sameMetric, finds.backend.remove docId⟩

theorem addEach (finds : index.Finds dimension metric)
    {vectors : List (DocId × Vector32)}
    (added : PersistentVectorIndex.addEach index vectors = (.ok (), after)) :
    after.Finds dimension metric := by
  induction vectors generalizing index with
  | nil =>
      cases added
      exact finds
  | cons entry rest ih =>
      unfold PersistentVectorIndex.addEach at added
      split at added
      · cases added
      · rename_i between isAdded
        exact ih (finds.add isAdded) added

/-- An index in which nothing can be found is a linear scan of nothing. -/
theorem nothing (sound : HnswSound) (graphs : HnswFinds)
    (finds : index.Finds dimension metric)
    (none : ∀ listing query topK, query.length = dimension →
      index.search listing query topK = .ok []) :
    ∃ scan, index.backend = .linear scan ∧ scan.vectors = ∅ := by
  obtain ⟨-, -, finds⟩ := finds
  unfold VectorIndex.search at none
  cases isBackend : index.backend with
  | linear scan =>
      refine ⟨scan, rfl, ?_⟩
      rw [isBackend] at finds none
      obtain ⟨sameDimension, -, lengths⟩ := finds
      apply Finmap.ext_lookup
      intro docId
      rw [Finmap.lookup_empty]
      cases found : scan.vectors.lookup docId with
      | none => rfl
      | some vector =>
          have fits := lengths docId vector found
          obtain ⟨results, isFound, length, -, -⟩ :=
            LinearScanIndex.search_finds (.any DocId)
              (fits.trans sameDimension.symm) 1
          cases (none (.any DocId) vector 1 fits).symm.trans isFound
          have member : docId ∈ scan.vectors.keys :=
            Finmap.mem_keys.mpr (Finmap.mem_of_lookup_eq_some found)
          have positive := Finset.card_pos.mpr ⟨docId, member⟩
          rw [List.length_nil] at length
          omega
  | hnsw graph =>
      rw [isBackend] at finds none
      obtain ⟨seen, points, holds, some, query, fits⟩ := finds
      exact absurd (none (.any DocId) query 1 fits)
        (holds.search_ne_nil sound graphs some fits 1)

end VectorIndex.Finds

/-! ## What a closed index leaves -/

namespace PersistentVectorIndex

/-- The metadata on disk are those of the index. -/
structure Kept (indexName : Bytes) (dimension : Nat) (metric : VectorMetric)
    (persistent : PersistentVectorIndex) : Prop where
  sameName : persistent.indexName = indexName
  finds : persistent.index.Finds dimension metric
  metadata : ∀ metadata,
    persistent.storage.getIndexMetadata indexName = some metadata →
    metadata.dimension = dimension ∧
      VectorMetric.ofName metadata.metric = metric

namespace Kept

variable {indexName : Bytes} {dimension : Nat} {metric : VectorMetric}
  {persistent after : PersistentVectorIndex}

/-- A new index goes by the metadata on disk, or by its own arguments. -/
theorem new (indexName : Bytes) (dimension : Nat) (metric : VectorMetric)
    (db : Tables) (snapshotInterval : Nat) :
    let opened := PersistentVectorIndex.new indexName dimension metric db
      snapshotInterval
    ∃ dimension metric, opened.Kept indexName dimension metric := by
  intro opened
  obtain ⟨openedDimension, openedMetric, isOpened, -, known⟩ :=
    new_index indexName dimension metric db snapshotInterval
  refine ⟨openedDimension, openedMetric, rfl, ?_, ?_⟩
  · simp only [opened, isOpened]
    exact .new openedDimension openedMetric 10000
  · intro metadata found
    obtain ⟨sameDimension, sameMetric⟩ := known metadata found
    exact ⟨sameDimension.symm, sameMetric.symm⟩

theorem counted (kept : persistent.Kept indexName dimension metric)
    {count : Nat} {failure : Option Bytes}
    (counts : persistent.counted count failure = (.ok (), after)) :
    after.Kept indexName dimension metric := by
  obtain ⟨sameName, finds, metadata⟩ := kept
  unfold PersistentVectorIndex.counted PersistentVectorIndex.snapshot
    RedbVectorStorage.storeIndexMetadata at counts
  dsimp only at counts
  split at counts
  · cases failure with
    | some error => cases counts
    | none =>
        cases counts
        refine ⟨sameName, finds, ?_⟩
        intro written found
        unfold RedbVectorStorage.getIndexMetadata at found
        dsimp only at found
        rw [sameName, Finmap.lookup_insert] at found
        cases found
        refine ⟨finds.sameDimension, ?_⟩
        rw [VectorMetric.ofName_name]
        exact finds.sameMetric
  · cases counts
    exact ⟨sameName, finds, metadata⟩

/-- An operation that succeeds keeps the metadata. -/
theorem apply (kept : persistent.Kept indexName dimension metric)
    {operation : PersistentOperation}
    (succeeds : persistent.Succeeds operation after) :
    after.Kept indexName dimension metric := by
  obtain ⟨storeFailure, snapshotFailure, succeeds⟩ := succeeds
  cases operation with
  | add docId vector =>
      simp only [PersistentVectorIndex.apply, PersistentVectorIndex.add]
        at succeeds
      split at succeeds
      · cases succeeds
      · rename_i index added
        unfold RedbVectorStorage.storeVector at succeeds
        cases storeFailure with
        | some error => cases succeeds
        | none =>
            have moved : Kept indexName dimension metric { persistent with
                index := index
                storage := persistent.storage.cacheVectors
                  [(docId, vector)] |>.commitVectors [(docId, vector)] } :=
              ⟨kept.sameName, kept.finds.add added, kept.metadata⟩
            exact moved.counted succeeds
  | addBatch vectors =>
      simp only [PersistentVectorIndex.apply, PersistentVectorIndex.addBatch]
        at succeeds
      split at succeeds
      · cases succeeds
      · rename_i index added
        unfold RedbVectorStorage.storeVectorsBatch at succeeds
        cases isEmpty : vectors.isEmpty with
        | true =>
            rw [isEmpty] at succeeds
            have moved : Kept indexName dimension metric
                { persistent with index := index } :=
              ⟨kept.sameName, kept.finds.addEach added, kept.metadata⟩
            exact moved.counted succeeds
        | false =>
            rw [isEmpty] at succeeds
            cases storeFailure with
            | some error => cases succeeds
            | none =>
                have moved : Kept indexName dimension metric { persistent with
                    index := index
                    storage := persistent.storage.cacheVectors
                      vectors |>.commitVectors vectors } :=
                  ⟨kept.sameName, kept.finds.addEach added, kept.metadata⟩
                exact moved.counted succeeds
  | remove docId =>
      cases succeeds
      exact ⟨kept.sameName, kept.finds.remove docId, kept.metadata⟩

end Kept

/-- A scan of nothing finds nothing. -/
theorem search_bare (listing : Listing DocId) {scan : LinearScanIndex}
    (empty : scan.vectors = ∅) (query : Vector32) (topK : Nat) :
    scan.search listing query topK =
      if query.length ≠ scan.dimension then
        .error (dimensionMismatch (text "Query vector") scan.dimension
          query.length)
      else .ok [] := by
  unfold LinearScanIndex.search
  rw [empty, Listing.entries_empty]
  simp [sortDescending]

/-- An index that is opened again recovers nothing but the metadata. -/
theorem reopened_recovers_iff (sound : HnswSound) (graphs : HnswFinds)
    {indexName : Bytes} {dimension : Nat} {metric : VectorMetric}
    {db : Tables} {snapshotInterval : Nat}
    {operations : List PersistentOperation}
    {persistent : PersistentVectorIndex}
    (run : Runs Succeeds
      (new indexName dimension metric db snapshotInterval) operations
      persistent)
    (otherDimension : Nat) (otherMetric : VectorMetric)
    (otherInterval : Nat) :
    persistent.Recovers
        (new indexName otherDimension otherMetric persistent.storage.db
          otherInterval) ↔
      persistent.Bare ∧
        (persistent.storage.getIndexMetadata indexName = none →
          otherDimension = persistent.index.dimension ∧
            otherMetric = persistent.index.metric) := by
  obtain ⟨keptDimension, keptMetric, kept⟩ :
      ∃ dimension metric, persistent.Kept indexName dimension metric := by
    refine run.invariant
      (fun state => ∃ dimension metric, state.Kept indexName dimension metric)
      ?_ (Kept.new indexName dimension metric db snapshotInterval)
    intro before operation after known succeeds
    obtain ⟨dimension, metric, kept⟩ := known
    exact ⟨dimension, metric, kept.apply succeeds⟩
  obtain ⟨-, finds, metadata⟩ := kept
  have sameDimension := finds.sameDimension
  have sameMetric := finds.sameMetric
  obtain ⟨openedDimension, openedMetric, isOpened, byArguments,
    byMetadata⟩ := new_index indexName otherDimension otherMetric
      persistent.storage.db otherInterval
  generalize new indexName otherDimension otherMetric persistent.storage.db
    otherInterval = opened at isOpened ⊢
  have searched : ∀ listing query topK,
      opened.search listing query topK =
        if query.length ≠ openedDimension then
          .error (dimensionMismatch (text "Query vector") openedDimension
            query.length)
        else .ok [] := by
    intro listing query topK
    unfold PersistentVectorIndex.search
    rw [isOpened]
    exact search_bare listing rfl query topK
  constructor
  · intro recovers
    have opensDimension := recovers.dimension
    have opensMetric := recovers.metric
    have len := recovers.len
    unfold PersistentVectorIndex.len at len
    rw [isOpened] at opensDimension opensMetric len
    change openedDimension = _ at opensDimension
    change openedMetric = _ at opensMetric
    refine ⟨⟨len.symm, finds.nothing sound graphs ?_⟩, ?_⟩
    · intro listing query topK fits
      have same := recovers.search listing query topK
      rw [searched, if_neg (by simp [fits, opensDimension, sameDimension])]
        at same
      exact same.symm
    · intro unknown
      obtain ⟨isDimension, isMetric⟩ := byArguments unknown
      exact ⟨isDimension.symm.trans opensDimension,
        isMetric.symm.trans opensMetric⟩
  · intro ⟨⟨len, scan, isBackend, empty⟩, arguments⟩
    have backend := finds.backend
    rw [isBackend] at backend
    obtain ⟨scanDimension, -, -⟩ := backend
    obtain ⟨opensDimension, opensMetric⟩ :
        openedDimension = keptDimension ∧ openedMetric = keptMetric := by
      by_cases unknown : persistent.storage.getIndexMetadata indexName = none
      · obtain ⟨isDimension, isMetric⟩ := byArguments unknown
        obtain ⟨ofDimension, ofMetric⟩ := arguments unknown
        exact ⟨isDimension.trans (ofDimension.trans sameDimension),
          isMetric.trans (ofMetric.trans sameMetric)⟩
      · obtain ⟨found, known⟩ := Option.ne_none_iff_exists'.mp unknown
        obtain ⟨isDimension, isMetric⟩ := byMetadata found known
        obtain ⟨ofDimension, ofMetric⟩ := metadata found known
        exact ⟨isDimension.trans ofDimension, isMetric.trans ofMetric⟩
    refine ⟨?_, ?_, ?_, ?_⟩
    · rw [isOpened]
      exact opensDimension.trans sameDimension.symm
    · rw [isOpened]
      exact opensMetric.trans sameMetric.symm
    · rw [len, PersistentVectorIndex.len, isOpened]
      rfl
    · intro listing query topK
      rw [searched]
      unfold PersistentVectorIndex.search VectorIndex.search
      rw [isBackend, opensDimension, ← scanDimension]
      exact (search_bare listing empty query topK).symm

end PersistentVectorIndex

end

/-! ## One vector -/

section

attribute [local instance] VectorPlatform.integral

namespace PersistentVectorIndex

/-- An index for vectors of one number at a path without a database. -/
def fresh : PersistentVectorIndex :=
  new (text "one") 1 .cosine .empty 10

/-- An index with one vector is empty when it is opened again. -/
theorem reopened_forgets :
    ¬∀ (indexName : Bytes) (dimension : Nat) (metric : VectorMetric)
      (db : Tables) (snapshotInterval : Nat)
      (operations : List PersistentOperation)
      (persistent : PersistentVectorIndex),
      Runs Succeeds (new indexName dimension metric db snapshotInterval)
        operations persistent →
      persistent.Recovers
        (new indexName dimension metric persistent.storage.db
          snapshotInterval) := by
  intro recovers
  have run : Runs Succeeds fresh [.add 1 (integers [1])]
      (fresh.apply none none (.add 1 (integers [1]))).2 :=
    .next ⟨none, none, rfl⟩ (.done _)
  cases (recovers _ _ _ _ _ _ _ run).len

/-- An index whose vector is removed again is recovered. -/
theorem reopened_recovers_removed :
    ∃ persistent, Runs Succeeds fresh
        [.add 1 (integers [1]), .remove 1] persistent ∧
      (persistent.Recovers
          (new (text "one") 1 .cosine persistent.storage.db 10) ↔
        persistent.Bare ∧
          (persistent.storage.getIndexMetadata (text "one") = none →
            1 = persistent.index.dimension ∧
              .cosine = persistent.index.metric)) := by
  have run : Runs Succeeds fresh [.add 1 (integers [1]), .remove 1]
      ((fresh.apply none none (.add 1 (integers [1]))).2.apply none none
        (.remove 1)).2 :=
    .next ⟨none, none, rfl⟩ (.next ⟨none, none, rfl⟩ (.done _))
  exact ⟨_, run, reopened_recovers_iff hnswSound_integral
    hnswFinds_integral run 1 .cosine 10⟩

end PersistentVectorIndex

end

/-!
## What an index can find

An index finds numbers that were added to it and no others, whichever backend
it has and whether or not its storage fails.
-/

section

variable [VectorPlatform] {numbers : Set DocId}

namespace VectorIndexBackend

/-- Every number that the backend can find is one of these. -/
def Within (numbers : Set DocId) : VectorIndexBackend → Prop
  | .linear index => ∀ docId ∈ index.vectors, docId ∈ numbers
  | .hnsw index => ∀ id docId, index.idToDocId.lookup id = some docId →
      docId ∈ numbers

variable {backend after : VectorIndexBackend} {docId : DocId}
  {vector : Vector32}

theorem Within.mono {more : Set DocId} (within : backend.Within numbers)
    (part : numbers ⊆ more) : backend.Within more := by
  cases backend with
  | linear index => exact fun docId known => part (within docId known)
  | hnsw index => exact fun id docId known => part (within id docId known)

theorem within_linear_new (dimension : Nat) (metric : VectorMetric) :
    (linear (.new dimension metric)).Within numbers := by
  intro docId known
  exact absurd known Finmap.notMem_empty

theorem within_hnsw_new (dimension : Nat) (metric : VectorMetric) :
    (hnsw (.newFastInsert dimension metric)).Within numbers := by
  intro id docId known
  simp [HNSWIndex.newFastInsert, HNSWIndex.new] at known

theorem Within.add (within : backend.Within numbers)
    (member : docId ∈ numbers) (added : backend.add docId vector = .ok after) :
    after.Within numbers := by
  cases backend with
  | linear index =>
      simp only [VectorIndexBackend.add, LinearScanIndex.add] at added
      split at added
      · cases added
      · cases added
        intro other known
        obtain rfl | old := Finmap.mem_insert.mp known
        · exact member
        · exact within other old
  | hnsw index =>
      simp only [VectorIndexBackend.add, HNSWIndex.insert] at added
      split at added
      · cases added
      · split at added
        · cases added
          exact within
        · cases added
          intro id other known
          by_cases same : id = index.nextId
          · subst same
            rw [Finmap.lookup_insert] at known
            exact Option.some.inj known ▸ member
          · rw [Finmap.lookup_insert_of_ne _ same] at known
            exact within id other known

theorem Within.search (within : backend.Within numbers)
    {listing : Listing DocId} {query : Vector32} {topK : Nat}
    {results : List (DocId × F32)}
    (found : backend.search listing query topK = .ok results) :
    ∀ result ∈ results, result.1 ∈ numbers := by
  intro result member
  cases backend with
  | linear index =>
      simp only [VectorIndexBackend.search, LinearScanIndex.search] at found
      split at found
      · cases found
      · cases found
        have scored := (sortDescending_perm _).mem_iff.mp
          (List.mem_of_mem_take member)
        obtain ⟨⟨docId, vector⟩, listed, rfl⟩ := List.mem_map.mp scored
        have known := (listing.mem_entries _ _ _).mp listed
        exact within docId (Finmap.mem_iff.mpr ⟨vector, known⟩)
  | hnsw index =>
      simp only [VectorIndexBackend.search, HNSWIndex.search] at found
      split at found
      · cases found
      · cases found
        have near := (sortDescending_perm _).mem_iff.mp member
        obtain ⟨⟨id, distance⟩, -, named⟩ := List.mem_filterMap.mp near
        obtain ⟨docId, known, rfl⟩ := Option.map_eq_some_iff.mp named
        exact within id docId known

end VectorIndexBackend

/-- An addition, also one that fails, makes no other number known. -/
theorem VectorIndex.add_within {index : VectorIndex} {docId : DocId}
    (within : index.backend.Within numbers) (member : docId ∈ numbers)
    (vector : Vector32) :
    (index.add docId vector).2.backend.Within numbers := by
  have prepared : (if index.migrates then index.migrateToHnsw
      else index).backend.Within numbers := by
    split
    · exact VectorIndexBackend.within_hnsw_new _ _
    · exact within
  unfold VectorIndex.add
  dsimp only
  split
  · exact prepared
  · rename_i backend added
    exact prepared.add member added

namespace PersistentVectorIndex

/-- The storage has no say in what is added in memory. -/
theorem add_memory (persistent : PersistentVectorIndex)
    (storeFailure snapshotFailure : Option Bytes) (docId : DocId)
    (vector : Vector32) :
    (persistent.add storeFailure snapshotFailure docId vector).2.index =
      (persistent.index.add docId vector).2 := by
  have counts : ∀ (other : PersistentVectorIndex) (count : Nat),
      (other.counted count snapshotFailure).2.index = other.index := by
    intro other count
    unfold counted snapshot
    dsimp only
    split
    · split
      · rename_i failed
        obtain ⟨-, rfl⟩ := Prod.mk.inj failed
        rfl
      · rename_i stored
        obtain ⟨-, rfl⟩ := Prod.mk.inj stored
        rfl
    · rfl
  unfold add
  split
  · rename_i error index failed
    rw [failed]
  · rename_i index added
    rw [added]
    split
    · rfl
    · exact counts _ 1

/-- A new index finds nothing. -/
theorem new_within (indexName : Bytes) (dimension : Nat)
    (metric : VectorMetric) (db : Tables) (snapshotInterval : Nat) :
    (new indexName dimension metric db
      snapshotInterval).index.backend.Within numbers := by
  obtain ⟨openedDimension, openedMetric, isNew, -⟩ :=
    new_index indexName dimension metric db snapshotInterval
  rw [isNew]
  exact VectorIndexBackend.within_linear_new openedDimension openedMetric

theorem add_within {persistent : PersistentVectorIndex}
    {storeFailure snapshotFailure : Option Bytes} {docId : DocId}
    (within : persistent.index.backend.Within numbers)
    (member : docId ∈ numbers) (vector : Vector32) :
    (persistent.add storeFailure snapshotFailure docId
      vector).2.index.backend.Within numbers := by
  rw [add_memory]
  exact VectorIndex.add_within within member vector

end PersistentVectorIndex

end

end RedVector.VectorSearch
