import RedVector.VectorSearch.Index

/-!
# Sequences of operations on a vector index

What the index holds after its operations is a map, and the backend serves the
operations since it was put in place.
-/

namespace RedVector.VectorSearch

open Effect

variable [VectorPlatform]

inductive Operation where
  | add (docId : DocId) (vector : Vector32)
  | remove (docId : DocId)

namespace Operation

def docId : Operation → DocId
  | .add docId _ => docId
  | .remove docId => docId

def isAdd : Operation → Bool
  | .add _ _ => true
  | .remove _ => false

/-- What an operation does to the map of the vectors. -/
def perform (dimension : Nat) (vectors : HashMap DocId Vector32) :
    Operation → HashMap DocId Vector32
  | .add docId vector =>
      if vector.length = dimension then vectors.insert docId vector
      else vectors
  | .remove docId => vectors.erase docId

/-- A number is added while it is absent and removed while it is present. -/
def Alternates (dimension : Nat) (vectors : HashMap DocId Vector32) :
    Operation → Prop
  | .add docId vector => vector.length = dimension → docId ∉ vectors
  | .remove docId => docId ∈ vectors

end Operation

/-- The vectors that were added and not removed since, each the latest of its
number. -/
def contents (dimension : Nat) (operations : List Operation) :
    HashMap DocId Vector32 :=
  operations.foldl (Operation.perform dimension) ∅

theorem contents_concat (dimension : Nat) (operations : List Operation)
    (operation : Operation) :
    contents dimension (operations ++ [operation]) =
      operation.perform dimension (contents dimension operations) := by
  simp [contents]

/-- Every operation of the sequence alternates. -/
def Alternating (dimension : Nat) (operations : List Operation) : Prop :=
  ∀ before operation after, operations = before ++ operation :: after →
    operation.Alternates dimension (contents dimension before)

theorem Alternating.concat
    {dimension : Nat} {operations : List Operation} {operation : Operation}
    (alternating : Alternating dimension (operations ++ [operation])) :
    Alternating dimension operations ∧
      operation.Alternates dimension (contents dimension operations) := by
  constructor
  · intro before between after same
    refine alternating before between (after ++ [operation]) ?_
    rw [same]
    simp
  · exact alternating operations operation [] rfl

/-- Every operation adds a vector, and no two of them one number. -/
structure AddsOnce (operations : List Operation) : Prop where
  adds : ∀ operation ∈ operations, operation.isAdd = true
  once : (operations.map Operation.docId).Nodup

theorem AddsOnce.concat
    {operations : List Operation} {operation : Operation}
    (once : AddsOnce (operations ++ [operation])) :
    AddsOnce operations ∧ operation.isAdd = true ∧
      operation.docId ∉ operations.map Operation.docId := by
  obtain ⟨adds, nodup⟩ := once
  rw [List.map_append, List.nodup_append] at nodup
  refine ⟨⟨?_, nodup.1⟩, ?_, ?_⟩
  · exact fun other member => adds other (List.mem_append_left _ member)
  · exact adds operation (List.mem_append_right _ (List.mem_singleton_self _))
  · intro member
    exact nodup.2.2 _ member _ (List.mem_singleton_self _) rfl

/-- A number that the later operations touch is as they leave it. -/
theorem contents_append
    {dimension : Nat} {docId : DocId} {vector : Vector32}
    (earlier : List Operation) {later : List Operation}
    (present : (contents dimension later).lookup docId = some vector) :
    (contents dimension (earlier ++ later)).lookup docId = some vector := by
  induction later using List.reverseRecOn generalizing vector with
  | nil => cases present
  | append_singleton later operation ih =>
      rw [← List.append_assoc, contents_concat]
      rw [contents_concat] at present
      cases operation with
      | add other added =>
          by_cases fits : added.length = dimension
          · simp only [Operation.perform, if_pos fits] at present ⊢
            by_cases same : docId = other
            · rw [same, Finmap.lookup_insert] at present ⊢
              exact present
            · rw [Finmap.lookup_insert_of_ne _ same] at present ⊢
              exact ih present
          · simp only [Operation.perform, if_neg fits] at present ⊢
            exact ih present
      | remove other =>
          simp only [Operation.perform] at present ⊢
          by_cases same : docId = other
          · rw [same, Finmap.lookup_erase] at present
            cases present
          · rw [Finmap.lookup_erase_ne same] at present ⊢
            exact ih present

namespace VectorIndex

def apply (index : VectorIndex) :
    Operation → Except Bytes Unit × VectorIndex
  | .add docId vector => index.add docId vector
  | .remove docId => index.remove docId

def run (index : VectorIndex) (operations : List Operation) : VectorIndex :=
  operations.foldl (fun index operation => (index.apply operation).2) index

/-- Whether an operation puts a new graph in place. -/
def switches (index : VectorIndex) : Operation → Bool
  | .add _ _ => index.migrates
  | .remove _ => false

/-- The operations that the backend has served after one more. -/
def serve (index : VectorIndex) (seen : List Operation)
    (operation : Operation) : List Operation :=
  (if index.switches operation then [] else seen) ++ [operation]

/-- The operations that the last backend has served. -/
def served (index : VectorIndex) (seen : List Operation) :
    List Operation → List Operation
  | [] => seen
  | operation :: rest =>
      (index.apply operation).2.served (index.serve seen operation) rest

end VectorIndex

/-! ## What a search of each backend finds -/

theorem sortDescending_perm (results : List (DocId × F32)) :
    (sortDescending results).Perm results :=
  List.mergeSort_perm _ _

/-- The linear scan finds as many vectors as it was asked for, and scores them
all. -/
theorem LinearScanIndex.search_finds
    (listing : Listing DocId) {index : LinearScanIndex} {query : Vector32}
    (fits : query.length = index.dimension) (topK : Nat) :
    ∃ results, index.search listing query topK = .ok results ∧
      results.length = min topK index.vectors.keys.card ∧
      (results.map Prod.fst).Nodup ∧
      ∀ result ∈ results, ∃ vector,
        index.vectors.lookup result.1 = some vector ∧
        result.2 = similarity index.metric query vector := by
  let scored := (listing.entries index.vectors).map fun entry =>
    (entry.1, similarity index.metric query entry.2)
  have perm := sortDescending_perm scored
  refine ⟨(sortDescending scored).take topK, ?_, ?_, ?_, ?_⟩
  · exact if_neg (by simpa using fits)
  · rw [List.length_take, perm.length_eq, List.length_map,
      listing.length_entries]
  · have ids : scored.map Prod.fst =
        (listing.entries index.vectors).map Prod.fst := by
      rw [List.map_map]
      rfl
    have nodup := listing.nodup_entries index.vectors
    rw [← ids] at nodup
    have sorted := (perm.map Prod.fst).nodup_iff.mpr nodup
    exact sorted.sublist ((List.take_sublist _ _).map _)
  · intro result member
    have listed := perm.mem_iff.mp (List.mem_of_mem_take member)
    obtain ⟨⟨docId, vector⟩, found, rfl⟩ := List.mem_map.mp listed
    exact ⟨vector, (listing.mem_entries _ _ _).mp found, rfl⟩

/-- A graph holds points for operations it has served. -/
structure HNSWIndex.Holds (index : HNSWIndex) (dimension : Nat)
    (metric : VectorMetric) (seen : List Operation)
    (points : List (Vector32 × Nat)) : Prop where
  hnsw : index.hnsw = hnswOf 16 1000000 13 100 points
  sameDimension : index.dimension = dimension
  sameMetric : index.metric = metric
  below : ∀ point ∈ points, point.2 < index.nextId
  ids : ∀ docId id, index.docIdToId.lookup docId = some id →
    id < index.nextId ∧ index.idToDocId.lookup id = some docId ∧
      ∃ vector, .add docId vector ∈ seen
  added : ∀ point ∈ points, ∃ docId,
    index.idToDocId.lookup point.2 = some docId ∧ .add docId point.1 ∈ seen
  once : AddsOnce seen →
    (points.map fun point => index.idToDocId.lookup point.2).Nodup ∧
      ∀ point ∈ points, ∃ docId,
        index.idToDocId.lookup point.2 = some docId ∧
        (contents dimension seen).lookup docId = some point.1

namespace HNSWIndex.Holds

variable {index : HNSWIndex} {dimension : Nat} {metric : VectorMetric}
  {seen : List Operation} {points : List (Vector32 × Nat)}

theorem new (dimension : Nat) (metric : VectorMetric) :
    (newFastInsert dimension metric).Holds dimension metric [] [] where
  hnsw := rfl
  sameDimension := rfl
  sameMetric := rfl
  below := by simp
  ids := by
    intro docId id found
    cases found
  added := by simp
  once := by simp

theorem remove (holds : index.Holds dimension metric seen points)
    (docId : DocId) :
    (index.remove docId).Holds dimension metric (seen ++ [.remove docId])
      points where
  hnsw := holds.hnsw
  sameDimension := holds.sameDimension
  sameMetric := holds.sameMetric
  below := holds.below
  ids := by
    intro other id found
    by_cases same : other = docId
    · rw [same] at found
      cases (Finmap.lookup_erase docId index.docIdToId).symm.trans found
    · have found := (Finmap.lookup_erase_ne same).symm.trans found
      obtain ⟨below, back, vector, member⟩ := holds.ids other id found
      exact ⟨below, back, vector, List.mem_append_left _ member⟩
  added := by
    intro point member
    obtain ⟨other, found, member⟩ := holds.added point member
    exact ⟨other, found, List.mem_append_left _ member⟩
  once := by
    intro once
    cases once.concat.2.1

/-- A vector of the wrong dimension is refused. -/
theorem refuse (holds : index.Holds dimension metric seen points)
    (docId : DocId) {vector : Vector32} (misfits : vector.length ≠ dimension) :
    index.Holds dimension metric (seen ++ [.add docId vector]) points where
  hnsw := holds.hnsw
  sameDimension := holds.sameDimension
  sameMetric := holds.sameMetric
  below := holds.below
  ids := by
    intro other id found
    obtain ⟨below, back, vector, member⟩ := holds.ids other id found
    exact ⟨below, back, vector, List.mem_append_left _ member⟩
  added := by
    intro point member
    obtain ⟨other, found, member⟩ := holds.added point member
    exact ⟨other, found, List.mem_append_left _ member⟩
  once := by
    intro once
    have same : contents dimension (seen ++ [.add docId vector]) =
        contents dimension seen := by
      rw [contents_concat]
      exact if_neg misfits
    rw [same]
    exact holds.once once.concat.1

/-- A number that the graph knows keeps its point. -/
theorem insertKnown (holds : index.Holds dimension metric seen points)
    {docId : DocId} {id : Nat} (vector : Vector32)
    (known : index.docIdToId.lookup docId = some id) :
    HNSWIndex.Holds
      { index with hnsw := VectorPlatform.hnswInsert index.hnsw vector id }
      dimension metric (seen ++ [.add docId vector])
      (points ++ [(vector, id)]) := by
  obtain ⟨below, back, earlier, was⟩ := holds.ids docId id known
  constructor
  · rw [hnswOf, List.foldl_append, ← hnswOf, ← holds.hnsw]
    rfl
  · exact holds.sameDimension
  · exact holds.sameMetric
  · intro point member
    rcases List.mem_append.mp member with old | new
    · exact holds.below point old
    · cases List.mem_singleton.mp new
      exact below
  · intro other id found
    obtain ⟨below, back, vector, member⟩ := holds.ids other id found
    exact ⟨below, back, vector, List.mem_append_left _ member⟩
  · intro point member
    rcases List.mem_append.mp member with old | new
    · obtain ⟨other, found, member⟩ := holds.added point old
      exact ⟨other, found, List.mem_append_left _ member⟩
    · cases List.mem_singleton.mp new
      exact ⟨docId, back, List.mem_append_right _ (List.mem_singleton_self _)⟩
  · intro once
    exact absurd (List.mem_map.mpr ⟨_, was, rfl⟩) once.concat.2.2

/-- A new number gets the next point. -/
theorem insertNew (holds : index.Holds dimension metric seen points)
    {docId : DocId} {vector : Vector32} (fits : vector.length = dimension) :
    HNSWIndex.Holds
      { index with
        nextId := index.nextId + 1
        idToDocId := index.idToDocId.insert index.nextId docId
        docIdToId := index.docIdToId.insert docId index.nextId
        hnsw := VectorPlatform.hnswInsert index.hnsw vector index.nextId }
      dimension metric (seen ++ [.add docId vector])
      (points ++ [(vector, index.nextId)]) := by
  have kept : ∀ id, id < index.nextId →
      (index.idToDocId.insert index.nextId docId).lookup id =
        index.idToDocId.lookup id :=
    fun id below => Finmap.lookup_insert_of_ne _ (Nat.ne_of_lt below)
  have isNew : (index.idToDocId.insert index.nextId docId).lookup
      index.nextId = some docId := Finmap.lookup_insert _
  have added : Operation.add docId vector ∈
      seen ++ [Operation.add docId vector] :=
    List.mem_append_right _ (List.mem_singleton_self _)
  constructor
  · rw [hnswOf, List.foldl_append, ← hnswOf, ← holds.hnsw]
    rfl
  · exact holds.sameDimension
  · exact holds.sameMetric
  · intro point member
    rcases List.mem_append.mp member with old | new
    · exact Nat.lt_succ_of_lt (holds.below point old)
    · cases List.mem_singleton.mp new
      exact Nat.lt_succ_self _
  · intro other id found
    by_cases same : other = docId
    · rw [same, Finmap.lookup_insert] at found
      cases found
      rw [same]
      exact ⟨Nat.lt_succ_self _, isNew, vector, added⟩
    · rw [Finmap.lookup_insert_of_ne _ same] at found
      obtain ⟨below, back, earlier, member⟩ := holds.ids other id found
      exact ⟨Nat.lt_succ_of_lt below, (kept id below).trans back, earlier,
        List.mem_append_left _ member⟩
  · intro point member
    rcases List.mem_append.mp member with old | new
    · obtain ⟨other, found, member⟩ := holds.added point old
      exact ⟨other, (kept _ (holds.below point old)).trans found,
        List.mem_append_left _ member⟩
    · cases List.mem_singleton.mp new
      exact ⟨docId, isNew, added⟩
  · intro once
    obtain ⟨once, -, fresh⟩ := once.concat
    obtain ⟨nodup, latest⟩ := holds.once once
    have others : ∀ point ∈ points,
        (index.idToDocId.insert index.nextId docId).lookup point.2 =
          index.idToDocId.lookup point.2 :=
      fun point member => kept _ (holds.below point member)
    constructor
    · rw [List.map_append, List.map_congr_left others, List.nodup_append]
      refine ⟨nodup, List.nodup_singleton _, ?_⟩
      intro old listed new isLast same
      obtain ⟨point, member, rfl⟩ := List.mem_map.mp listed
      obtain ⟨other, found, was⟩ := holds.added point member
      cases List.mem_singleton.mp isLast
      cases found.symm.trans (same.trans isNew)
      exact fresh (List.mem_map.mpr ⟨_, was, rfl⟩)
    · intro point member
      rw [contents_concat, Operation.perform, if_pos fits]
      rcases List.mem_append.mp member with old | new
      · obtain ⟨other, found, present⟩ := latest point old
        obtain ⟨another, found', was⟩ := holds.added point old
        cases found.symm.trans found'
        refine ⟨other, (others point old).trans found, ?_⟩
        rw [Finmap.lookup_insert_of_ne]
        · exact present
        · intro same
          rw [same] at was
          exact fresh (List.mem_map.mpr ⟨_, was, rfl⟩)
      · cases List.mem_singleton.mp new
        exact ⟨docId, isNew, Finmap.lookup_insert _⟩

/-- A vector of the right dimension gets a point. -/
theorem insert (holds : index.Holds dimension metric seen points)
    (docId : DocId) {vector : Vector32} (fits : vector.length = dimension) :
    ∃ after points, index.insert docId vector = .ok after ∧ points ≠ [] ∧
      after.Holds dimension metric (seen ++ [.add docId vector]) points := by
  unfold HNSWIndex.insert
  rw [if_neg (by simpa [holds.sameDimension] using fits)]
  cases known : index.docIdToId.lookup docId with
  | some id =>
      exact ⟨_, _, rfl, by simp, holds.insertKnown vector known⟩
  | none => exact ⟨_, _, rfl, by simp, holds.insertNew fits⟩

end HNSWIndex.Holds

/-- A search of a graph finds points it holds. -/
theorem HNSWIndex.search_finds
    (sound : HnswSound) {index : HNSWIndex} {dimension : Nat}
    {metric : VectorMetric} {seen : List Operation}
    {points : List (Vector32 × Nat)}
    (holds : index.Holds dimension metric seen points) {query : Vector32}
    (fits : query.length = dimension) (topK : Nat) :
    ∃ results, index.search query topK = .ok results ∧
      results.length ≤ max topK 1 ∧
      (∀ result ∈ results, ∃ vector, .add result.1 vector ∈ seen ∧
        result.2 = similarity metric
          (VectorPlatform.distCosine query vector)) ∧
      (AddsOnce seen → (results.map Prod.fst).Nodup ∧
        ∀ result ∈ results, ∃ vector,
          (contents dimension seen).lookup result.1 = some vector ∧
          result.2 = similarity metric
            (VectorPlatform.distCosine query vector)) := by
  obtain ⟨neighbours, within, atMost, found⟩ :=
    sound 16 1000000 13 100 points query (max topK 1) index.efSearch
  rw [← holds.hnsw] at found
  let scored := neighbours.filterMap fun point =>
    (index.idToDocId.lookup point.2).map fun docId =>
      (docId, similarity metric (VectorPlatform.distCosine query point.1))
  have perm := sortDescending_perm scored
  have isScored : ∀ result ∈ sortDescending scored, ∃ point ∈ points,
      index.idToDocId.lookup point.2 = some result.1 ∧
      result.2 = similarity metric
        (VectorPlatform.distCosine query point.1) := by
    intro result listed
    obtain ⟨point, member, shown⟩ :=
      List.mem_filterMap.mp (perm.mem_iff.mp listed)
    obtain ⟨docId, known, rfl⟩ := Option.map_eq_some_iff.mp shown
    exact ⟨point, within.subset member, known, rfl⟩
  refine ⟨sortDescending scored, ?_, ?_, ?_, ?_⟩
  · unfold HNSWIndex.search
    rw [if_neg (by simpa [holds.sameDimension] using fits)]
    simp only [found, List.filterMap_map, holds.sameMetric]
    rfl
  · rw [perm.length_eq]
    exact (List.length_filterMap_le _ _).trans atMost
  · intro result member
    obtain ⟨point, member, known, score⟩ := isScored result member
    obtain ⟨docId, found, was⟩ := holds.added point member
    cases known.symm.trans found
    exact ⟨point.1, was, score⟩
  · intro once
    obtain ⟨nodup, latest⟩ := holds.once once
    constructor
    · rw [(perm.map Prod.fst).nodup_iff, List.map_filterMap]
      have ids : (neighbours.map fun point =>
          index.idToDocId.lookup point.2).Nodup := by
        obtain ⟨list, same, sublist⟩ := within
        exact (same.map _).nodup_iff.mp (nodup.sublist (sublist.map _))
      have named := ids.filterMap (f := id) (by
        intro a b docId isA isB
        exact (Option.mem_def.mp isA).trans (Option.mem_def.mp isB).symm)
      rw [List.filterMap_map] at named
      refine cast ?_ named
      congr 2
      funext point
      simp [Option.map_map, Function.comp_def]
    · intro result member
      obtain ⟨point, member, known, score⟩ := isScored result member
      obtain ⟨docId, found, present⟩ := latest point member
      cases known.symm.trans found
      exact ⟨point.1, present, score⟩

/-- A search of a graph that holds points finds something. -/
theorem HNSWIndex.Holds.search_ne_nil
    (sound : HnswSound) (graphs : HnswFinds) {index : HNSWIndex}
    {dimension : Nat} {metric : VectorMetric} {seen : List Operation}
    {points : List (Vector32 × Nat)}
    (holds : index.Holds dimension metric seen points) (some : points ≠ [])
    {query : Vector32} (fits : query.length = dimension) (topK : Nat) :
    index.search query topK ≠ .ok [] := by
  obtain ⟨neighbours, within, -, found⟩ :=
    sound 16 1000000 13 100 points query (max topK 1) index.efSearch
  have some := graphs 16 1000000 13 100 points query (max topK 1)
    index.efSearch some (by omega)
  rw [found, ne_eq, List.map_eq_nil_iff] at some
  rw [← holds.hnsw] at found
  obtain ⟨point, member⟩ := List.exists_mem_of_ne_nil neighbours some
  obtain ⟨docId, known, -⟩ := holds.added point (within.subset member)
  intro nothing
  unfold HNSWIndex.search at nothing
  rw [if_neg (by simpa [holds.sameDimension] using fits)] at nothing
  simp only [found, List.filterMap_map, Except.ok.injEq] at nothing
  have empty := (sortDescending_perm _).symm.trans (.of_eq nothing)
  have unknown := List.filterMap_eq_nil_iff.mp empty.eq_nil point member
  simp [known] at unknown

end RedVector.VectorSearch
