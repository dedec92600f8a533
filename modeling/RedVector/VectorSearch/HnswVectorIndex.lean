import RedVector.Util.Ranking
import RedVector.VectorSearch.Index

/-!
# The vector index of the APIs

A graph whose points are documents.  A document that is removed stays in the
graph and loses its number there.  The counters are natural numbers: each
number that one of them gives out leaves a vector in memory.
-/

namespace RedVector.VectorSearch

open Effect Util

section

variable [VectorPlatform]

structure HnswVectorIndex where
  index : VectorPlatform.Hnsw
  dimension : Nat
  count : Nat
  docIdMap : HashMap Nat Nat
  idToDoc : HashMap Nat Nat
  nextId : Nat

namespace HnswVectorIndex

/-- The metric is not used: the distance is always that of the cosine. -/
def new (dimension : Nat) (_metric : VectorMetric)
    (m efConstruction : Option Nat) : HnswVectorIndex where
  index := VectorPlatform.hnswNew (m.getD 16) 1000000 16
    (efConstruction.getD 200)
  dimension := dimension
  count := 0
  docIdMap := ∅
  idToDoc := ∅
  nextId := 0

def add (index : HnswVectorIndex) (docId : Nat) (vector : Vector32) :
    Except Bytes HnswVectorIndex :=
  if vector.length ≠ index.dimension then
    .error (dimensionMismatch (text "Vector") index.dimension vector.length)
  else if docId ∈ index.docIdMap then
    .error (text "Document " ++ natToString docId ++
      text " already exists in index")
  else
    let internalId := index.nextId
    .ok { index with
      nextId := internalId + 1
      index := VectorPlatform.hnswInsert index.index vector internalId
      docIdMap := index.docIdMap.insert docId internalId
      idToDoc := index.idToDoc.insert internalId docId
      count := index.count + 1 }

/-- `sort_by(|a, b| a.1.partial_cmp(&b.1).unwrap_or(Equal))`. -/
def sortAscending (results : List (Nat × F32)) : List (Nat × F32) :=
  results.mergeSort fun a b => !VectorPlatform.f32Lt b.2 a.2

def search (index : HnswVectorIndex) (queryVector : Vector32) (k : Nat)
    (efSearch : Option Nat) : Except Bytes (List (Nat × F32)) :=
  if queryVector.length ≠ index.dimension then
    .error (dimensionMismatch (text "Query vector") index.dimension
      queryVector.length)
  else
    let neighbours := VectorPlatform.hnswSearch index.index queryVector
      (max k 1) (efSearch.getD (max k 10 * 2))
    .ok (sortAscending (neighbours.filterMap fun (internalId, distance) =>
      (index.idToDoc.lookup internalId).map fun docId => (docId, distance)))

/-- The vector stays in the graph. -/
def remove (index : HnswVectorIndex) (docId : Nat) :
    Except Bytes HnswVectorIndex :=
  match index.docIdMap.lookup docId with
  | some internalId =>
      .ok { index with
        docIdMap := index.docIdMap.erase docId
        idToDoc := index.idToDoc.erase internalId
        count := index.count - 1 }
  | none =>
      .error (text "Document " ++ natToString docId ++
        text " not found in index")

/-- `let _ = index.remove(doc_id)`. -/
def removed (index : HnswVectorIndex) (docId : Nat) : HnswVectorIndex :=
  match index.remove docId with
  | .ok after => after
  | .error _ => index

def len (index : HnswVectorIndex) : Nat :=
  index.count

/-! ## Bookkeeping -/

/-- A document that a search can answer. -/
def Live (index : HnswVectorIndex) (docId : Nat) : Prop :=
  ∃ internalId, index.docIdMap.lookup docId = some internalId ∧
    index.idToDoc.lookup internalId = some docId

/-- The two maps are inverse to each other, the numbers in use were given out,
and the count is right. -/
structure Bookkept (index : HnswVectorIndex) : Prop where
  inverses : Inverses index.docIdMap index.idToDoc
  below : ∀ internalId docId,
    index.idToDoc.lookup internalId = some docId → internalId < index.nextId
  counted : index.count = index.docIdMap.keys.card

variable {index after : HnswVectorIndex} {docId : Nat} {vector : Vector32}

theorem Bookkept.live_iff (bookkept : index.Bookkept) (docId : Nat) :
    index.Live docId ↔ docId ∈ index.docIdMap := by
  rw [Finmap.mem_iff]
  constructor
  · intro live
    obtain ⟨internalId, found, _⟩ := live
    exact ⟨internalId, found⟩
  · intro present
    obtain ⟨internalId, found⟩ := present
    exact ⟨internalId, found, (bookkept.inverses _ _).mp found⟩

theorem bookkept_new (dimension : Nat) (metric : VectorMetric)
    (m efConstruction : Option Nat) :
    (new dimension metric m efConstruction).Bookkept where
  inverses := Inverses.empty
  below := by
    intro internalId docId found
    cases found
  counted := rfl

/-- What an addition that succeeds changes. -/
theorem add_ok (added : index.add docId vector = .ok after) :
    vector.length = index.dimension ∧ docId ∉ index.docIdMap ∧
      after = { index with
        nextId := index.nextId + 1
        index := VectorPlatform.hnswInsert index.index vector index.nextId
        docIdMap := index.docIdMap.insert docId index.nextId
        idToDoc := index.idToDoc.insert index.nextId docId
        count := index.count + 1 } := by
  unfold add at added
  split at added
  · cases added
  · rename_i fits
    split at added
    · cases added
    · rename_i absent
      cases added
      exact ⟨not_not.mp fits, absent, rfl⟩

/-- A new document of the right dimension is added. -/
theorem add_succeeds (fits : vector.length = index.dimension)
    (absent : docId ∉ index.docIdMap) :
    ∃ after, index.add docId vector = .ok after := by
  simp [add, fits, absent]

theorem Bookkept.add (bookkept : index.Bookkept)
    (added : index.add docId vector = .ok after) : after.Bookkept := by
  obtain ⟨_, absent, rfl⟩ := add_ok added
  have missing : index.docIdMap.lookup docId = none :=
    Finmap.lookup_eq_none.mpr absent
  have unused : index.idToDoc.lookup index.nextId = none := by
    cases found : index.idToDoc.lookup index.nextId with
    | none => rfl
    | some other =>
        exact absurd (bookkept.below _ _ found) (Nat.lt_irrefl _)
  refine ⟨bookkept.inverses.insert missing unused, ?_, ?_⟩
  · intro internalId other found
    rw [lookup_insert] at found
    split at found
    · rename_i same
      rw [same]
      exact Nat.lt_succ_self _
    · exact Nat.lt_succ_of_lt (bookkept.below _ _ found)
  · have unlisted : docId ∉ index.docIdMap.keys := by
      rwa [Finmap.mem_keys]
    simp only [keys_insert, Finset.card_insert_of_notMem unlisted,
      bookkept.counted]

theorem removed_some {internalId : Nat}
    (found : index.docIdMap.lookup docId = some internalId) :
    index.removed docId = { index with
      docIdMap := index.docIdMap.erase docId
      idToDoc := index.idToDoc.erase internalId
      count := index.count - 1 } := by
  simp only [removed, remove, found]

theorem removed_none (absent : index.docIdMap.lookup docId = none) :
    index.removed docId = index := by
  simp only [removed, remove, absent]

theorem removed_docIdMap (index : HnswVectorIndex) (docId : Nat) :
    (index.removed docId).docIdMap = index.docIdMap.erase docId := by
  cases found : index.docIdMap.lookup docId with
  | some internalId => rw [removed_some found]
  | none =>
      rw [removed_none found]
      apply Finmap.ext_lookup
      intro other
      by_cases same : other = docId
      · rw [same, Finmap.lookup_erase, found]
      · rw [Finmap.lookup_erase_ne same]

theorem removed_dimension (index : HnswVectorIndex) (docId : Nat) :
    (index.removed docId).dimension = index.dimension := by
  cases found : index.docIdMap.lookup docId with
  | some internalId => rw [removed_some found]
  | none => rw [removed_none found]

theorem Bookkept.removed (bookkept : index.Bookkept) (docId : Nat) :
    (index.removed docId).Bookkept := by
  cases found : index.docIdMap.lookup docId with
  | none =>
      rw [removed_none found]
      exact bookkept
  | some internalId =>
      rw [removed_some found]
      refine ⟨bookkept.inverses.erase found, ?_, ?_⟩
      · intro other held kept
        by_cases same : other = internalId
        · rw [same, Finmap.lookup_erase] at kept
          cases kept
        · rw [Finmap.lookup_erase_ne same] at kept
          exact bookkept.below _ _ kept
      · have listed : docId ∈ index.docIdMap.keys :=
          Finmap.mem_keys.mpr (Finmap.mem_of_lookup_eq_some found)
        simp only [Finmap.keys_erase, Finset.card_erase_of_mem listed,
          bookkept.counted]

end HnswVectorIndex

end

/-!
## Runs of the vector index of the APIs

Whatever is added and removed, also in vain, the documents and their numbers
in the graph belong together, and a search answers documents that are there.
-/

section

variable [VectorPlatform]

/-- What the crate is taken to do: a search answers each number at most
once. -/
def HnswOnce : Prop :=
  ∀ m nbElem nbLayer efConstruction points query knbn ef,
    (points.map Prod.snd).Nodup →
      ((VectorPlatform.hnswSearch
        (hnswOf m nbElem nbLayer efConstruction points) query knbn
          ef).map Prod.fst).Nodup

/-- One distance is not greater than another. -/
def notGreater (a b : F32) : Bool :=
  !VectorPlatform.f32Lt b a

/-- The crate panics on a distance that is not a number; the others are in
order. -/
def HnswCompares : Prop :=
  ∀ m nbElem nbLayer efConstruction points query knbn ef,
    Ranks notGreater ((VectorPlatform.hnswSearch
      (hnswOf m nbElem nbLayer efConstruction points) query knbn
        ef).map Prod.snd)

end

namespace HnswVectorIndex

section

variable [VectorPlatform]

inductive Call where
  | add (docId : Nat) (vector : Vector32)
  | remove (docId : Nat)

/-- What a call answers and leaves. -/
def apply (index : HnswVectorIndex) (call : Call) :
    Except Bytes Unit × HnswVectorIndex :=
  let result :=
    match call with
    | .add docId vector => index.add docId vector
    | .remove docId => index.remove docId
  match result with
  | .ok after => (.ok (), after)
  | .error error => (.error error, index)

def run (index : HnswVectorIndex) (calls : List Call) : HnswVectorIndex :=
  calls.foldl (fun index call => (index.apply call).2) index

/-- The number that a call gives to a document. -/
def given (index : HnswVectorIndex) : Call → Option Nat
  | .add docId vector =>
      match index.add docId vector with
      | .ok after => after.docIdMap.lookup docId
      | .error _ => none
  | .remove _ => none

/-- The numbers that the calls give to documents, in order. -/
def givenAll (index : HnswVectorIndex) : List Call → List Nat
  | [] => []
  | call :: rest =>
      (index.given call).toList ++ (index.apply call).2.givenAll rest

/-- What a call puts into the graph. -/
def inserted (index : HnswVectorIndex) (call : Call) :
    Option (Vector32 × Nat) :=
  match call with
  | .add _ vector => (index.given call).map fun number => (vector, number)
  | .remove _ => none

/-- What the calls put into the graph, in order. -/
def insertions (index : HnswVectorIndex) : List Call → List (Vector32 × Nat)
  | [] => []
  | call :: rest =>
      (index.inserted call).toList ++ (index.apply call).2.insertions rest

/-- The index is in order, and its graph holds every number that was given out
once. -/
structure Kept (index : HnswVectorIndex) : Prop where
  bookkept : index.Bookkept
  graph : ∃ m efConstruction points,
    index.index = hnswOf m 1000000 16 efConstruction points ∧
      points.map Prod.snd = List.range index.nextId

variable {index after : HnswVectorIndex} {call : Call} {docId : Nat}
  {vector : Vector32}

theorem kept_new (dimension : Nat) (metric : VectorMetric)
    (m efConstruction : Option Nat) :
    (new dimension metric m efConstruction).Kept where
  bookkept := bookkept_new dimension metric m efConstruction
  graph := ⟨m.getD 16, efConstruction.getD 200, [], rfl, rfl⟩

theorem Kept.add (kept : index.Kept)
    (added : index.add docId vector = .ok after) : after.Kept := by
  refine ⟨kept.bookkept.add added, ?_⟩
  obtain ⟨m, efConstruction, points, graph, ids⟩ := kept.graph
  obtain ⟨-, -, rfl⟩ := add_ok added
  refine ⟨m, efConstruction, points ++ [(vector, index.nextId)], ?_, ?_⟩
  · rw [graph, hnswOf, hnswOf, List.foldl_append]
    rfl
  · rw [List.map_append, ids, List.range_succ]
    rfl

theorem Kept.remove (kept : index.Kept)
    (removes : index.remove docId = .ok after) : after.Kept := by
  have bookkept := kept.bookkept.removed docId
  rw [removed, removes] at bookkept
  refine ⟨bookkept, ?_⟩
  unfold HnswVectorIndex.remove at removes
  split at removes
  · cases removes
    exact kept.graph
  · cases removes

theorem apply_add (index : HnswVectorIndex) (docId : Nat) (vector : Vector32) :
    index.apply (.add docId vector) =
      match index.add docId vector with
      | .ok after => (.ok (), after)
      | .error error => (.error error, index) :=
  rfl

/-- A call that fails changes nothing. -/
theorem apply_error {error : Bytes}
    (fails : index.apply call = (.error error, after)) : after = index := by
  unfold apply at fails
  dsimp only at fails
  split at fails
  · cases fails
  · cases fails
    rfl

theorem Kept.apply (kept : index.Kept) (call : Call) :
    (index.apply call).2.Kept := by
  unfold HnswVectorIndex.apply
  dsimp only
  split
  · rename_i after result
    cases call with
    | add docId vector => exact kept.add result
    | remove docId => exact kept.remove result
  · exact kept

theorem Kept.run (kept : index.Kept) (calls : List Call) :
    (index.run calls).Kept := by
  induction calls generalizing index with
  | nil => exact kept
  | cons call rest ih => exact ih (kept.apply call)

/-! ## Numbers -/

/-- A call gives out the next number or none. -/
theorem given_next (index : HnswVectorIndex) (call : Call) :
    (index.given call = none ∧
      (index.apply call).2.nextId = index.nextId) ∨
    index.given call = some index.nextId ∧
      (index.apply call).2.nextId = index.nextId + 1 := by
  cases call with
  | add docId vector =>
      unfold given apply
      dsimp only
      cases added : index.add docId vector with
      | error error => exact .inl ⟨rfl, rfl⟩
      | ok after =>
          obtain ⟨-, -, rfl⟩ := add_ok added
          exact .inr ⟨Finmap.lookup_insert _, rfl⟩
  | remove docId =>
      refine .inl ⟨rfl, ?_⟩
      unfold apply HnswVectorIndex.remove
      dsimp only
      split
      · rename_i after removes
        split at removes
        · cases removes
          rfl
        · cases removes
      · rfl

/-- The numbers that are given out from now on are the next ones. -/
theorem givenAll_range (index : HnswVectorIndex) (calls : List Call) :
    ∃ count, index.givenAll calls = List.range' index.nextId count := by
  induction calls generalizing index with
  | nil => exact ⟨0, rfl⟩
  | cons call rest ih =>
      obtain ⟨count, later⟩ := ih (index.apply call).2
      rw [givenAll, later]
      rcases given_next index call with ⟨none, same⟩ | ⟨next, more⟩
      · rw [none, same]
        exact ⟨count, rfl⟩
      · rw [next, more]
        exact ⟨count + 1, rfl⟩

theorem givenAll_nodup (index : HnswVectorIndex) (calls : List Call) :
    (index.givenAll calls).Nodup := by
  obtain ⟨count, range⟩ := givenAll_range index calls
  rw [range]
  exact List.nodup_range'

theorem insertions_numbers (index : HnswVectorIndex) (calls : List Call) :
    (index.insertions calls).map Prod.snd = index.givenAll calls := by
  induction calls generalizing index with
  | nil => rfl
  | cons call rest ih =>
      rw [insertions, givenAll, List.map_append, ih]
      congr 1
      cases call with
      | add docId vector =>
          unfold inserted
          dsimp only
          cases index.given (.add docId vector) with
          | none => rfl
          | some number => rfl
      | remove docId => rfl

theorem run_append (index : HnswVectorIndex) (calls more : List Call) :
    index.run (calls ++ more) = (index.run calls).run more :=
  List.foldl_append

/-- An addition that succeeds puts its vector under the next number. -/
theorem inserted_add (added : index.add docId vector = .ok after) :
    index.inserted (.add docId vector) = some (vector, index.nextId) ∧
      after.docIdMap.lookup docId = some index.nextId := by
  obtain ⟨-, -, grown⟩ := add_ok added
  have known : after.docIdMap.lookup docId = some index.nextId := by
    rw [grown]
    exact Finmap.lookup_insert _
  refine ⟨?_, known⟩
  unfold inserted given
  dsimp only
  rw [added]
  dsimp only
  rw [known]
  rfl

/-- The graph is that of the insertions. -/
theorem run_graph {m efConstruction : Nat} {points : List (Vector32 × Nat)}
    (graph : index.index = hnswOf m 1000000 16 efConstruction points)
    (calls : List Call) :
    (index.run calls).index =
      hnswOf m 1000000 16 efConstruction
        (points ++ index.insertions calls) := by
  induction calls generalizing index points with
  | nil =>
      rw [insertions, List.append_nil]
      exact graph
  | cons call rest ih =>
      rw [insertions, ← List.append_assoc]
      refine @ih (index.apply call).2 _ ?_
      cases call with
      | add docId vector =>
          cases added : index.add docId vector with
          | error error =>
              simp only [apply, inserted, given, added, Option.map_none,
                Option.toList_none, List.append_nil]
              exact graph
          | ok after =>
              rw [(inserted_add added).1, hnswOf, Option.toList_some,
                List.foldl_append, ← hnswOf, ← graph]
              obtain ⟨-, -, grown⟩ := add_ok added
              simp only [apply, added, grown, List.foldl_cons, List.foldl_nil]
      | remove docId =>
          have same : (index.apply (.remove docId)).2.index = index.index := by
            unfold apply HnswVectorIndex.remove
            dsimp only
            split
            · rename_i after removes
              split at removes
              · cases removes
                rfl
              · cases removes
            · rfl
          rw [same, inserted, Option.toList_none, List.append_nil]
          exact graph

/-! ## Searches -/

/-- What a search should answer. -/
structure Searches (index : HnswVectorIndex) (results : List (Nat × F32)) :
    Prop where
  live : ∀ result ∈ results, index.Live result.1
  once : (results.map Prod.fst).Nodup
  ascending : results.Pairwise fun a b => VectorPlatform.f32Lt b.2 a.2 = false

/-- The documents of the numbers that still stand for one. -/
theorem named_nodup {forward backward : HashMap Nat Nat}
    (inverses : Inverses forward backward) {neighbours : List (Nat × F32)}
    (once : (neighbours.map Prod.fst).Nodup) :
    ((neighbours.filterMap fun neighbour =>
      (backward.lookup neighbour.1).map fun docId =>
        (docId, neighbour.2)).map Prod.fst).Nodup := by
  rw [List.map_filterMap]
  have named : (neighbours.filterMap fun neighbour =>
      ((backward.lookup neighbour.1).map fun docId =>
        (docId, neighbour.2)).map Prod.fst) =
      (neighbours.map Prod.fst).filterMap backward.lookup := by
    rw [List.filterMap_map]
    apply List.filterMap_congr
    intro neighbour _
    rw [Option.map_map]
    exact Option.map_id' ..
  rw [named]
  refine once.filterMap ?_
  intro first second docId left right
  have here := (inverses docId first).mpr left
  have there := (inverses docId second).mpr right
  exact Option.some.inj (here.symm.trans there)

theorem Kept.search (kept : index.Kept) (once : HnswOnce)
    (compares : HnswCompares) {query : Vector32} {k : Nat}
    {efSearch : Option Nat} {results : List (Nat × F32)}
    (found : index.search query k efSearch = .ok results) :
    index.Searches results := by
  obtain ⟨m, efConstruction, points, graph, ids⟩ := kept.graph
  unfold HnswVectorIndex.search at found
  split at found
  · cases found
  · cases found
    rw [graph]
    generalize queried : VectorPlatform.hnswSearch
      (hnswOf m 1000000 16 efConstruction points) query (max k 1)
      (efSearch.getD (max k 10 * 2)) = neighbours
    have single : (neighbours.map Prod.fst).Nodup := by
      rw [← queried]
      apply once
      rw [ids]
      exact List.nodup_range
    have ranks : Ranks notGreater (neighbours.map Prod.snd) := by
      rw [← queried]
      apply compares
    generalize listed : (neighbours.filterMap fun neighbour =>
      (index.idToDoc.lookup neighbour.1).map fun docId =>
        (docId, neighbour.2)) = documents
    have origin : ∀ result ∈ documents, ∃ internalId,
        (internalId, result.2) ∈ neighbours ∧
          index.idToDoc.lookup internalId = some result.1 := by
      intro result member
      rw [← listed] at member
      obtain ⟨neighbour, among, named⟩ := List.mem_filterMap.mp member
      obtain ⟨docId, known, rfl⟩ := Option.map_eq_some_iff.mp named
      exact ⟨neighbour.1, among, known⟩
    have perm : (sortAscending documents).Perm documents :=
      List.mergeSort_perm _ _
    refine ⟨?_, ?_, ?_⟩
    · intro result member
      obtain ⟨internalId, -, known⟩ := origin result (perm.mem_iff.mp member)
      exact ⟨internalId, (kept.bookkept.inverses _ _).mpr known, known⟩
    · rw [(perm.map Prod.fst).nodup_iff, ← listed]
      exact named_nodup kept.bookkept.inverses single
    · have ordered := (ranks.of_values Prod.snd fun result member => by
        obtain ⟨internalId, among, -⟩ := origin result member
        exact List.mem_map.mpr ⟨_, among, rfl⟩).mergeSort
      refine ordered.imp ?_
      intro a b order
      exact Bool.not_eq_true' _ ▸ order

/-! ## The bookkeeping -/

/-- After any calls the maps belong together and the length is their size, no
number was given out twice, a call that fails changes nothing, and a search
answers documents that are there, each once and the nearest first. -/
theorem run_bookkeeping (once : HnswOnce) (compares : HnswCompares)
    (dimension : Nat) (metric : VectorMetric) (m efConstruction : Option Nat)
    (calls : List Call) :
    let start := new dimension metric m efConstruction
    let index := start.run calls
    Inverses index.docIdMap index.idToDoc ∧
      index.len = index.docIdMap.keys.card ∧
      index.len = index.idToDoc.keys.card ∧
      (start.givenAll calls).Nodup ∧
      (∀ call error after, index.apply call = (.error error, after) →
        after = index) ∧
      ∀ query k efSearch results,
        index.search query k efSearch = .ok results →
          index.Searches results := by
  intro start index
  have kept : index.Kept :=
    (kept_new dimension metric m efConstruction).run calls
  have inverses := kept.bookkept.inverses
  have counted : index.len = index.docIdMap.keys.card := kept.bookkept.counted
  refine ⟨inverses, counted, counted.trans inverses.card,
    givenAll_nodup start calls, ?_, ?_⟩
  · intro call error after fails
    exact apply_error fails
  · intro query k efSearch results found
    exact kept.search once compares found

end

section

attribute [local instance] VectorPlatform.integral

theorem hnswOnce_integral : HnswOnce := by
  intro m nbElem nbLayer efConstruction points query knbn ef distinct
  rw [hnswOf_integral]
  have found : ((nearest points query knbn).map Prod.snd).Nodup := by
    have perm := (List.mergeSort_perm points fun a b =>
      decide (squaredDistance query a.1 ≤ squaredDistance query b.1)).map
        Prod.snd
    exact (perm.nodup_iff.mpr distinct).sublist
      ((List.take_sublist knbn _).map Prod.snd)
  show (((nearest points query knbn).map fun point =>
    (point.2, squaredDistance query point.1)).map Prod.fst).Nodup
  rw [List.map_map]
  exact found

theorem hnswCompares_integral : HnswCompares := by
  intro m nbElem nbLayer efConstruction points query knbn ef
  have order : ∀ a b : Int, notGreater a b = true ↔ a ≤ b := by
    intro a b
    show (!decide (b < a)) = true ↔ a ≤ b
    simp
  refine ⟨?_, ?_⟩
  · intro a _ b _
    rw [order, order]
    exact Int.le_total a b
  · intro a _ b _ c _
    rw [order, order, order]
    exact Int.le_trans

/-- A document is added, removed and added again. -/
theorem run_bookkeeping_again :
    let start := new 1 .cosine none none
    let calls : List Call := [.add 7 (integers [1]), .add 7 (integers [2]),
      .remove 7, .remove 8, .add 7 (integers [3])]
    (start.givenAll calls).Nodup ∧
      (start.run calls).len = (start.run calls).docIdMap.keys.card := by
  intro start calls
  have all := run_bookkeeping hnswOnce_integral hnswCompares_integral 1
    .cosine none none calls
  exact ⟨all.2.2.2.1, all.2.1⟩

end

end HnswVectorIndex

end RedVector.VectorSearch
