import RedVector.VectorSearch.Persistent

/-!
# Where the vector search panics

A scan asserts that vectors have the length of the query.  What is called out
of the repository may not come back: the sort of the standard library, which may
panic when the scores have no order, and the crate of the graphs.
-/

namespace RedVector.VectorSearch

open Effect

variable [VectorPlatform]

/-- Whether what is called out of the repository comes back: the sort, which
may panic when the scores have no order, and the graphs. -/
structure Outside where
  sorts : List (DocId × F32) → Bool
  inserts : VectorPlatform.Hnsw → Vector32 → Nat → Bool
  searches : VectorPlatform.Hnsw → Vector32 → Nat → Nat → Bool

/-- The scores of the vectors of a scan. -/
def scanScores (listing : Listing DocId) (index : LinearScanIndex)
    (query : Vector32) : List (DocId × F32) :=
  (listing.entries index.vectors).map fun (docId, vector) =>
    (docId, LinearScanIndex.similarity index.metric query vector)

/-- The scores of the neighbours in a graph. -/
def graphScores (index : HNSWIndex) (query : Vector32) (topK : Nat) :
    List (DocId × F32) :=
  let neighbours := VectorPlatform.hnswSearch index.hnsw query (max topK 1)
    index.efSearch
  neighbours.filterMap fun (id, distance) =>
    (index.idToDocId.lookup id).map fun docId =>
      (docId, HNSWIndex.similarity index.metric distance)

/-- Which searches come back. -/
def SearchReturns (outside : Outside) (listing : Listing DocId)
    (query : Vector32) (topK : Nat) : VectorIndexBackend → Prop
  | .linear index => query.length = index.dimension →
      (∀ docId vector, index.vectors.lookup docId = some vector →
        vector.length = query.length) ∧
      outside.sorts (scanScores listing index query) = true
  | .hnsw index => query.length = index.dimension →
      outside.searches index.hnsw query (max topK 1) index.efSearch = true ∧
      outside.sorts (graphScores index query topK) = true

/-- Which additions come back. -/
def AddReturns (outside : Outside) (index : VectorIndex) (docId : DocId)
    (vector : Vector32) : Prop :=
  match (if index.migrates then index.migrateToHnsw else index).backend with
  | .linear _ => True
  | .hnsw graph => vector.length = graph.dimension →
      outside.inserts graph.hnsw vector
        ((graph.docIdToId.lookup docId).getD graph.nextId) = true

namespace Panicking

/-- The scores, one after the other: `assert_eq!(a.len(), b.len())`. -/
def scores (metric : VectorMetric) (query : Vector32)
    (vectors : List (DocId × Vector32)) : Option (List (DocId × F32)) :=
  vectors.mapM fun (docId, vector) =>
    if query.length = vector.length then
      some (docId, LinearScanIndex.similarity metric query vector)
    else none

def sortDescending (outside : Outside) (results : List (DocId × F32)) :
    Option (List (DocId × F32)) :=
  if outside.sorts results then some (VectorSearch.sortDescending results)
  else none

def hnswSearch (outside : Outside) (hnsw : VectorPlatform.Hnsw)
    (query : Vector32) (knbn ef : Nat) : Option (List (Nat × F32)) :=
  if outside.searches hnsw query knbn ef then
    some (VectorPlatform.hnswSearch hnsw query knbn ef)
  else none

def search (outside : Outside) (listing : Listing DocId)
    (query : Vector32) (topK : Nat) :
    VectorIndexBackend → Option (Except Bytes (List (DocId × F32)))
  | .linear index =>
      if query.length ≠ index.dimension then
        some (.error (dimensionMismatch (text "Query vector") index.dimension
          query.length))
      else do
        let results ← scores index.metric query
          (listing.entries index.vectors)
        let sorted ← sortDescending outside results
        pure (.ok (sorted.take topK))
  | .hnsw index =>
      if query.length ≠ index.dimension then
        some (.error (dimensionMismatch (text "Query vector") index.dimension
          query.length))
      else do
        let neighbours ← hnswSearch outside index.hnsw query (max topK 1)
          index.efSearch
        let sorted ← sortDescending outside
          (neighbours.filterMap fun (id, distance) =>
            (index.idToDocId.lookup id).map fun docId =>
              (docId, HNSWIndex.similarity index.metric distance))
        pure (.ok sorted)

/-- The insertion into a graph, if the vector is added to one. -/
def hnswInsert (outside : Outside) (docId : DocId) (vector : Vector32) :
    VectorIndexBackend → Option Unit
  | .linear _ => some ()
  | .hnsw graph =>
      if vector.length ≠ graph.dimension then some ()
      else if outside.inserts graph.hnsw vector
          ((graph.docIdToId.lookup docId).getD graph.nextId) then some ()
      else none

def add (outside : Outside) (storeFailure snapshotFailure : Option Bytes)
    (index : PersistentVectorIndex) (docId : DocId) (vector : Vector32) :
    Option (Except Bytes Unit × PersistentVectorIndex) := do
  let switched := if index.index.migrates then index.index.migrateToHnsw
    else index.index
  hnswInsert outside docId vector switched.backend
  pure (index.add storeFailure snapshotFailure docId vector)

theorem scores_eq
    {metric : VectorMetric} {query : Vector32}
    {vectors : List (DocId × Vector32)}
    (sized : ∀ entry ∈ vectors, query.length = entry.2.length) :
    scores metric query vectors = some (vectors.map fun (docId, vector) =>
      (docId, LinearScanIndex.similarity metric query vector)) := by
  unfold scores
  induction vectors with
  | nil => rfl
  | cons entry rest ih =>
      obtain ⟨docId, vector⟩ := entry
      have first : query.length = vector.length :=
        sized (docId, vector) List.mem_cons_self
      have later := ih fun other member =>
        sized other (List.mem_cons_of_mem _ member)
      rw [List.mapM_cons, later]
      dsimp only
      rw [if_pos first]
      rfl

theorem scores_sized
    {metric : VectorMetric} {query : Vector32}
    {vectors : List (DocId × Vector32)} {results : List (DocId × F32)}
    (compared : scores metric query vectors = some results) :
    ∀ entry ∈ vectors, query.length = entry.2.length := by
  unfold scores at compared
  induction vectors generalizing results with
  | nil => exact nofun
  | cons entry rest ih =>
      obtain ⟨docId, vector⟩ := entry
      rw [List.mapM_cons] at compared
      obtain ⟨first, isFirst, compared⟩ := Option.bind_eq_some_iff.mp compared
      obtain ⟨later, isLater, -⟩ := Option.bind_eq_some_iff.mp compared
      rw [List.forall_mem_cons]
      refine ⟨?_, ih isLater⟩
      by_contra different
      dsimp only at isFirst
      rw [if_neg different] at isFirst
      cases isFirst

variable {outside : Outside} {listing : Listing DocId} {query : Vector32}
  {topK : Nat} {backend : VectorIndexBackend}

/-- A search that comes back answers what it answers in a build that does not
panic. -/
theorem search_eq (returns : SearchReturns outside listing query topK backend) :
    search outside listing query topK backend =
      some (backend.search listing query topK) := by
  cases backend with
  | linear index =>
      unfold search VectorIndexBackend.search LinearScanIndex.search
      dsimp only
      split
      · rfl
      · rename_i fits
        obtain ⟨sized, sorts⟩ := returns (not_not.mp fits)
        have compared : scores index.metric query
            (listing.entries index.vectors) =
              some (scanScores listing index query) := by
          apply scores_eq
          intro entry member
          exact (sized entry.1 entry.2
            ((listing.mem_entries _ _ _).mp member)).symm
        rw [compared]
        show (sortDescending outside (scanScores listing index query)).bind
          _ = _
        unfold sortDescending
        rw [if_pos sorts]
        rfl
  | hnsw index =>
      unfold search VectorIndexBackend.search HNSWIndex.search
      dsimp only
      split
      · rfl
      · rename_i fits
        obtain ⟨searches, sorts⟩ := returns (not_not.mp fits)
        unfold hnswSearch
        rw [if_pos searches]
        show (sortDescending outside (graphScores index query topK)).bind
          _ = _
        unfold sortDescending
        rw [if_pos sorts]
        rfl

theorem search_returns {answer : Except Bytes (List (DocId × F32))}
    (answered : search outside listing query topK backend = some answer) :
    SearchReturns outside listing query topK backend := by
  cases backend with
  | linear index =>
      intro fits
      unfold search at answered
      dsimp only at answered
      rw [if_neg (not_not.mpr fits)] at answered
      obtain ⟨results, compared, answered⟩ :=
        Option.bind_eq_some_iff.mp answered
      obtain ⟨sorted, isSorted, -⟩ := Option.bind_eq_some_iff.mp answered
      have sized := scores_sized compared
      have compares : scores index.metric query
          (listing.entries index.vectors) =
            some (scanScores listing index query) := scores_eq sized
      cases compares.symm.trans compared
      refine ⟨?_, ?_⟩
      · intro docId vector found
        exact (sized (docId, vector)
          ((listing.mem_entries _ _ _).mpr found)).symm
      · unfold sortDescending at isSorted
        by_contra unsorted
        rw [if_neg (by exact unsorted)] at isSorted
        cases isSorted
  | hnsw index =>
      intro fits
      unfold search at answered
      dsimp only at answered
      rw [if_neg (not_not.mpr fits)] at answered
      obtain ⟨neighbours, searched, answered⟩ :=
        Option.bind_eq_some_iff.mp answered
      obtain ⟨sorted, isSorted, -⟩ := Option.bind_eq_some_iff.mp answered
      unfold hnswSearch at searched
      split at searched
      · rename_i searches
        cases searched
        refine ⟨searches, ?_⟩
        unfold sortDescending at isSorted
        by_contra unsorted
        rw [if_neg (by exact unsorted)] at isSorted
        cases isSorted
      · cases searched

theorem search_isSome :
    (search outside listing query topK backend).isSome = true ↔
      SearchReturns outside listing query topK backend := by
  constructor
  · intro answers
    obtain ⟨answer, answered⟩ := Option.isSome_iff_exists.mp answers
    exact search_returns answered
  · intro returns
    rw [search_eq returns]
    rfl

theorem add_eq {index : PersistentVectorIndex} {docId : DocId}
    {vector : Vector32} (returns : AddReturns outside index.index docId vector)
    (storeFailure snapshotFailure : Option Bytes) :
    add outside storeFailure snapshotFailure index docId vector =
      some (index.add storeFailure snapshotFailure docId vector) := by
  unfold add
  unfold AddReturns at returns
  dsimp only
  generalize (if index.index.migrates then index.index.migrateToHnsw
    else index.index).backend = backend at returns ⊢
  cases backend with
  | linear scan => rfl
  | hnsw graph =>
      have inserted : hnswInsert outside docId vector (.hnsw graph) =
          some () := by
        unfold hnswInsert
        dsimp only
        split
        · rfl
        · rename_i fits
          rw [if_pos (returns (not_not.mp fits))]
      rw [inserted]
      rfl

theorem add_returns {storeFailure snapshotFailure : Option Bytes}
    {index : PersistentVectorIndex} {docId : DocId} {vector : Vector32}
    {answer : Except Bytes Unit × PersistentVectorIndex}
    (answered : add outside storeFailure snapshotFailure index docId vector =
      some answer) : AddReturns outside index.index docId vector := by
  unfold add at answered
  unfold AddReturns
  dsimp only at answered
  obtain ⟨_, inserted, -⟩ := Option.bind_eq_some_iff.mp answered
  generalize (if index.index.migrates then index.index.migrateToHnsw
    else index.index).backend = backend at inserted ⊢
  cases backend with
  | linear scan => trivial
  | hnsw graph =>
      intro fits
      unfold hnswInsert at inserted
      dsimp only at inserted
      rw [if_neg (not_not.mpr fits)] at inserted
      by_contra refused
      rw [if_neg (by exact refused)] at inserted
      cases inserted

theorem add_isSome (storeFailure snapshotFailure : Option Bytes)
    {index : PersistentVectorIndex} {docId : DocId} {vector : Vector32} :
    (add outside storeFailure snapshotFailure index docId vector).isSome =
        true ↔ AddReturns outside index.index docId vector := by
  constructor
  · intro answers
    obtain ⟨answer, answered⟩ := Option.isSome_iff_exists.mp answers
    exact add_returns answered
  · intro returns
    rw [add_eq returns storeFailure snapshotFailure]
    rfl

/-- An index that was just created takes any vector. -/
theorem new_addReturns (outside : Outside) (indexName : Bytes)
    (dimension : Nat) (metric : VectorMetric) (tables : Tables)
    (docId : DocId) (vector : Vector32) :
    AddReturns outside
      (PersistentVectorIndex.new indexName dimension metric tables 1000).index
      docId vector := by
  obtain ⟨openedDimension, openedMetric, isOpened, -, -⟩ :=
    PersistentVectorIndex.new_index indexName dimension metric tables 1000
  rw [isOpened]
  exact trivial

end Panicking

end RedVector.VectorSearch
