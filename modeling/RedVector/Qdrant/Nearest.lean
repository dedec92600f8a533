import RedVector.Qdrant.History
import RedVector.Qdrant.Pages

/-!
# Filtered queries

A query fetches a number of neighbours and drops those that are stale or do
not pass.  What is left is complete exactly if enough of the fetched neighbours
pass.
-/

namespace RedVector.Qdrant

open Effect Util VectorSearch

section

variable [QdrantPlatform]

/-- What the crate is taken to do: a search answers the nearest of all points
that were inserted. -/
def HnswExact : Prop :=
  ∀ m nbElem nbLayer efConstruction points query knbn ef,
    ∃ ranked : List (Vector32 × Nat), ranked.Perm points ∧
      ranked.Pairwise (fun a b =>
        VectorPlatform.f32Lt (VectorPlatform.distCosine query b.1)
          (VectorPlatform.distCosine query a.1) = false) ∧
      VectorPlatform.hnswSearch
          (hnswOf m nbElem nbLayer efConstruction points) query knbn ef =
        (ranked.take knbn).map fun point =>
          (point.2, VectorPlatform.distCosine query point.1)

namespace Collection

/-- One point is nearer to the query than another. -/
def Nearer (collection : Collection) (query : Vector32) (id other : PointId) :
    Prop :=
  ∃ here there, collection.points.lookup id = some here ∧
    collection.points.lookup other = some there ∧
    VectorPlatform.f32Lt (VectorPlatform.distCosine query here.vector)
      (VectorPlatform.distCosine query there.vector) = true

/-- The answer that a query should get. -/
structure Complete (collection : Collection) (query : Vector32)
    (filter : Filter) (limit : Nat) (points : List ScoredPoint) : Prop where
  once : (points.map fun point => point.id).Nodup
  passes : ∀ point ∈ points, ∃ stored,
    collection.points.lookup point.id = some stored ∧
      passesFilter stored.payload filter = true ∧
      point.payload = stored.payload ∧
      point.score = collection.scoreFromDistance
        (VectorPlatform.distCosine query stored.vector)
  length : points.length = min limit (collection.passing filter).card
  ordered : points.Pairwise fun a b => ¬collection.Nearer query b.id a.id
  nearest : ∀ point ∈ points, ∀ id ∈ collection.passing filter,
    id ∉ points.map (fun point => point.id) →
      ¬collection.Nearer query id point.id

/-- The neighbours that are fetched: the nearest of all vectors that were ever
inserted. -/
def neighbours [Platform] (collection : Collection) (query : Vector32)
    (limit : Nat) (filter : Filter) : Option (List (Nat × F32)) := do
  let k ← fetchK limit filter
  let ef ← usize (max (max k 1) 10 * 2 : Nat)
  some (VectorPlatform.hnswSearch collection.index.index query (max k 1) ef)

/-- Whether a vector is the current one of a point that passes. -/
def standsFor (collection : Collection) (filter : Filter) (uid : Nat) :
    Bool :=
  ((collection.uidToId.lookup uid).bind collection.points.lookup).any
    fun stored => passesFilter stored.payload filter

variable {collection : Collection} {dimension m : Nat}
  {history : List (PointId × Vector32)} {query : Vector32} {filter : Filter}

/-- What is answered for a vector of the history. -/
def answerFor (collection : Collection) (query : Vector32) (filter : Filter)
    (entry : Vector32 × Nat) : Option ScoredPoint :=
  collection.answered filter
    (entry.2, VectorPlatform.distCosine query entry.1)

theorem answerFor_eq_some {entry : Vector32 × Nat} {point : ScoredPoint} :
    collection.answerFor query filter entry = some point ↔
      ∃ stored, collection.uidToId.lookup entry.2 = some point.id ∧
        collection.points.lookup point.id = some stored ∧
        passesFilter stored.payload filter = true ∧
        point.payload = stored.payload ∧
        point.score = collection.scoreFromDistance
          (VectorPlatform.distCosine query entry.1) := by
  unfold answerFor answered
  constructor
  · intro answers
    obtain ⟨id, known, answers⟩ := Option.bind_eq_some_iff.mp answers
    obtain ⟨stored, held, answers⟩ := Option.bind_eq_some_iff.mp answers
    rw [Filter.admits_eq] at answers
    split at answers
    · rename_i passes
      cases answers
      exact ⟨stored, known, held, passes, rfl, rfl⟩
    · cases answers
  · rintro ⟨stored, known, held, passes, payload, score⟩
    obtain ⟨⟨id, shown⟩, scored⟩ := point
    dsimp only at known held payload score
    simp only [known, held, Option.bind_eq_bind, Option.bind_some,
      Filter.admits_eq, passes, if_true, payload, score]

theorem answerFor_isSome (entry : Vector32 × Nat) :
    (collection.answerFor query filter entry).isSome =
      collection.standsFor filter entry.2 := by
  rw [Bool.eq_iff_iff, Option.isSome_iff_exists]
  unfold standsFor
  rw [Option.any_eq_true]
  constructor
  · rintro ⟨point, answers⟩
    obtain ⟨stored, known, held, passes, -⟩ := answerFor_eq_some.mp answers
    exact ⟨stored, Option.bind_eq_some_iff.mpr ⟨_, known, held⟩, passes⟩
  · rintro ⟨stored, found, passes⟩
    obtain ⟨id, known, held⟩ := Option.bind_eq_some_iff.mp found
    exact ⟨⟨⟨id, stored.payload⟩, _⟩,
      answerFor_eq_some.mpr ⟨stored, known, held, passes, rfl, rfl⟩⟩

/-! ## The candidates -/

/-- The points that the vectors of the history stand for are those that pass,
each once. -/
theorem Recorded.vector (recorded : collection.Recorded dimension m history)
    {entry : Vector32 × Nat} {id : PointId} (among : entry ∈ numbered history)
    (known : collection.uidToId.lookup entry.2 = some id) :
    ∃ stored, collection.points.lookup id = some stored ∧
      stored.vector = entry.1 := by
  obtain ⟨stored, held, placed⟩ := recorded.current entry.2 id known
  obtain ⟨other, inserted⟩ := mem_numbered.mp among
  rw [placed] at inserted
  obtain ⟨-, same⟩ := Prod.mk.inj (Option.some.inj inserted)
  exact ⟨stored, held, same⟩

theorem Recorded.candidates (recorded : collection.Recorded dimension m history)
    {ranked : List (Vector32 × Nat)} (perm : ranked.Perm (numbered history)) :
    let points := ranked.filterMap (collection.answerFor query filter)
    (points.map fun point => point.id).Nodup ∧
      ∀ id, id ∈ points.map (fun point => point.id) ↔
        id ∈ collection.passing filter := by
  intro points
  have inverses := recorded.coherent.inverses
  constructor
  · have distinct := (perm.map Prod.snd).nodup_iff.mpr (numbered_nodup history)
    rw [List.Nodup, List.pairwise_map] at distinct
    rw [List.Nodup, List.pairwise_map, List.pairwise_filterMap]
    refine distinct.imp ?_
    intro a b different first answersA second answersB sameId
    obtain ⟨-, knownA, -⟩ := answerFor_eq_some.mp answersA
    obtain ⟨-, knownB, -⟩ := answerFor_eq_some.mp answersB
    rw [← sameId] at knownB
    have here := (inverses _ _).mpr knownA
    rw [(inverses _ _).mpr knownB] at here
    exact different (Option.some.inj here).symm
  · intro id
    rw [mem_passing, List.mem_map]
    constructor
    · rintro ⟨point, member, rfl⟩
      obtain ⟨entry, -, answers⟩ := List.mem_filterMap.mp member
      obtain ⟨stored, -, held, passes, -⟩ := answerFor_eq_some.mp answers
      exact ⟨stored, held, passes⟩
    · rintro ⟨stored, held, passes⟩
      have present : id ∈ collection.idToUid := by
        rw [recorded.coherent.keys, Finmap.mem_iff]
        exact ⟨stored, held⟩
      obtain ⟨uid, maps⟩ := Finmap.mem_iff.mp present
      have known := (inverses id uid).mp maps
      obtain ⟨current, same, placed⟩ := recorded.current uid id known
      have among : (current.vector, uid) ∈ ranked :=
        perm.mem_iff.mpr (mem_numbered.mpr ⟨id, placed⟩)
      refine ⟨⟨⟨id, stored.payload⟩, collection.scoreFromDistance
        (VectorPlatform.distCosine query current.vector)⟩, ?_, rfl⟩
      refine List.mem_filterMap.mpr ⟨_, among, ?_⟩
      exact answerFor_eq_some.mpr ⟨stored, known, held, passes, rfl, rfl⟩

/-- A number that stands for a point is its own in the index. -/
theorem Recorded.named (recorded : collection.Recorded dimension m history)
    {uid : Nat} {id : PointId}
    (known : collection.uidToId.lookup uid = some id) :
    collection.index.idToDoc.lookup uid = some uid := by
  have live : collection.index.Live uid := by
    rw [recorded.coherent.live, Finmap.mem_iff]
    exact ⟨id, known⟩
  obtain ⟨internalId, -, back⟩ := live
  have same := recorded.same internalId uid back
  rwa [← same] at back

/-- The neighbours that a search leaves and the order they are in. -/
theorem Recorded.search (recorded : collection.Recorded dimension m history)
    (exact : HnswExact) (fits : query.length = dimension) (filter : Filter)
    (k ef : Nat) :
    ∃ ranked : List (Vector32 × Nat), ranked.Perm (numbered history) ∧
      ranked.Pairwise (fun a b =>
        VectorPlatform.f32Lt (VectorPlatform.distCosine query b.1)
          (VectorPlatform.distCosine query a.1) = false) ∧
      VectorPlatform.hnswSearch collection.index.index query (max k 1) ef =
        (ranked.take (max k 1)).map (fun point =>
          (point.2, VectorPlatform.distCosine query point.1)) ∧
      ∃ raw, collection.index.search query (max k 1) (some ef) = .ok raw ∧
        raw.filterMap (collection.answered filter) =
          (ranked.take (max k 1)).filterMap
            (collection.answerFor query filter) := by
  obtain ⟨ranked, perm, ordered, found⟩ :=
    exact m 1000000 16 200 (numbered history) query (max k 1) ef
  rw [← recorded.graph] at found
  refine ⟨ranked, perm, ordered, found, ?_⟩
  let near := ranked.take (max k 1)
  let documents := near.filterMap fun point =>
    (collection.index.idToDoc.lookup point.2).map fun uid =>
      (uid, VectorPlatform.distCosine query point.1)
  have sorted : HnswVectorIndex.sortAscending documents = documents := by
    apply List.mergeSort_of_pairwise
    rw [List.pairwise_filterMap]
    refine (ordered.sublist (List.take_sublist _ _)).imp ?_
    intro a b order first namesA second namesB
    obtain ⟨-, -, rfl⟩ := Option.map_eq_some_iff.mp namesA
    obtain ⟨-, -, rfl⟩ := Option.map_eq_some_iff.mp namesB
    rw [order]
    rfl
  have indexed : collection.index.dimension = dimension :=
    recorded.coherent.indexed.trans recorded.dimension
  refine ⟨documents, ?_, ?_⟩
  · unfold HnswVectorIndex.search
    rw [if_neg (by rw [indexed]; exact not_not.mpr fits), Option.getD_some,
      Nat.max_eq_left (Nat.le_max_right k 1), found]
    dsimp only
    rw [List.filterMap_map]
    exact congrArg Except.ok sorted
  · show documents.filterMap _ = near.filterMap _
    rw [List.filterMap_filterMap]
    apply List.filterMap_congr
    intro entry _
    cases names : collection.index.idToDoc.lookup entry.2 with
    | none =>
        cases answers : collection.answerFor query filter entry with
        | none => rfl
        | some point =>
            obtain ⟨-, known, -⟩ := answerFor_eq_some.mp answers
            rw [recorded.named known] at names
            cases names
    | some uid =>
        have same := recorded.same _ _ names
        subst same
        rfl

/-! ## Answers -/

/-- All candidates in the order in which they are ranked. -/
structure Candidates (collection : Collection) (query : Vector32)
    (filter : Filter) (points : List ScoredPoint) : Prop where
  once : (points.map fun point => point.id).Nodup
  members : ∀ id, id ∈ points.map (fun point => point.id) ↔
    id ∈ collection.passing filter
  passes : ∀ point ∈ points, ∃ stored,
    collection.points.lookup point.id = some stored ∧
      passesFilter stored.payload filter = true ∧
      point.payload = stored.payload ∧
      point.score = collection.scoreFromDistance
        (VectorPlatform.distCosine query stored.vector)
  ordered : points.Pairwise fun a b => ¬collection.Nearer query b.id a.id

theorem Recorded.ranked (recorded : collection.Recorded dimension m history)
    {ranked : List (Vector32 × Nat)} (perm : ranked.Perm (numbered history))
    (ordered : ranked.Pairwise (fun a b =>
      VectorPlatform.f32Lt (VectorPlatform.distCosine query b.1)
        (VectorPlatform.distCosine query a.1) = false)) :
    collection.Candidates query filter
      (ranked.filterMap (collection.answerFor query filter)) := by
  obtain ⟨once, members⟩ := recorded.candidates perm
  refine ⟨once, members, ?_, ?_⟩
  · intro point member
    obtain ⟨entry, among, answers⟩ := List.mem_filterMap.mp member
    obtain ⟨stored, known, held, passes, payload, score⟩ :=
      answerFor_eq_some.mp answers
    obtain ⟨current, now, vector⟩ :=
      recorded.vector (perm.mem_iff.mp among) known
    rw [held] at now
    cases now
    refine ⟨stored, held, passes, payload, ?_⟩
    rw [score, vector]
  · rw [List.pairwise_filterMap]
    refine ordered.imp_of_mem ?_
    intro a b amongA amongB order first answersA second answersB nearer
    obtain ⟨-, knownA, -⟩ := answerFor_eq_some.mp answersA
    obtain ⟨-, knownB, -⟩ := answerFor_eq_some.mp answersB
    obtain ⟨storedA, heldA, vectorA⟩ :=
      recorded.vector (perm.mem_iff.mp amongA) knownA
    obtain ⟨storedB, heldB, vectorB⟩ :=
      recorded.vector (perm.mem_iff.mp amongB) knownB
    obtain ⟨here, there, foundB, foundA, less⟩ := nearer
    rw [heldB] at foundB
    rw [heldA] at foundA
    cases foundB
    cases foundA
    rw [vectorA, vectorB, order] at less
    cases less

theorem Candidates.length {points : List ScoredPoint}
    (candidates : collection.Candidates query filter points) :
    points.length = (collection.passing filter).card := by
  rw [← List.length_map (f := fun point : ScoredPoint => point.id),
    ← List.toFinset_card_of_nodup candidates.once]
  congr 1
  ext id
  rw [List.mem_toFinset, candidates.members]

/-- As many candidates from the front as there should be are complete. -/
theorem Candidates.complete {points rest : List ScoredPoint} {limit : Nat}
    (candidates : collection.Candidates query filter (points ++ rest))
    (enough : points.length = min limit (collection.passing filter).card) :
    collection.Complete query filter limit points := by
  have once := candidates.once
  have ordered := candidates.ordered
  rw [List.map_append] at once
  rw [List.pairwise_append] at ordered
  refine ⟨once.of_append_left, ?_, enough, ordered.1, ?_⟩
  · intro point member
    exact candidates.passes point (List.mem_append_left _ member)
  · intro point member id passes missing
    have among := (candidates.members id).mpr passes
    rw [List.map_append, List.mem_append] at among
    rcases among with here | later
    · exact absurd here missing
    · obtain ⟨other, follows, rfl⟩ := List.mem_map.mp later
      exact ordered.2.2 point member other follows

end Collection

/-! ## Queries -/

variable [Platform] {state : QdrantState} {name : Name}
  {collection : Collection} {dimension m : Nat}
  {history : List (PointId × Vector32)} {query : Vector32}

open Collection in
/-- Only a query of the right dimension whose numbers do not overflow gets
points. -/
theorem queryPoints_ok
    (found : state.collections.lookup name = some collection)
    (recorded : collection.Recorded dimension m history)
    {limit : Nat} {filter : Option Filter} {points : List ScoredPoint}
    (answers : queryPoints state name ⟨some query, limit, filter⟩ =
      some (.ok points)) :
    query.length = dimension ∧ ∃ neighbours,
      collection.neighbours query limit (Filter.orDefault filter) =
        some neighbours := by
  have indexed : collection.index.dimension = dimension :=
    recorded.coherent.indexed.trans recorded.dimension
  unfold queryPoints at answers
  rw [found] at answers
  obtain ⟨k, fetches, answers⟩ := Option.bind_eq_some_iff.mp answers
  obtain ⟨result, searches, answers⟩ := Option.bind_eq_some_iff.mp answers
  unfold searchIn at searches
  split at searches
  · rename_i misfits
    cases searches
    unfold HnswVectorIndex.search at answers
    rw [if_pos misfits] at answers
    cases answers
  · rename_i fits
    obtain ⟨ef, doubles, -⟩ := Option.bind_eq_some_iff.mp searches
    refine ⟨(not_not.mp fits).trans indexed, VectorPlatform.hnswSearch
      collection.index.index query (max k 1) ef, ?_⟩
    unfold neighbours
    rw [fetches, Option.bind_eq_bind, Option.bind_some, doubles]
    rfl

open Collection in
/-- What is answered are the candidates among the neighbours. -/
theorem queryPoints_eq (exact : HnswExact)
    (found : state.collections.lookup name = some collection)
    (recorded : collection.Recorded dimension m history)
    (fits : query.length = dimension) (limit : Nat) (filter : Option Filter)
    {neighbours : List (Nat × F32)}
    (fetched : collection.neighbours query limit (Filter.orDefault filter) =
      some neighbours) :
    ∃ near rest, collection.Candidates query (Filter.orDefault filter)
        (near ++ rest) ∧
      near.length = neighbours.countP (fun neighbour =>
        collection.standsFor (Filter.orDefault filter) neighbour.1) ∧
      queryPoints state name ⟨some query, limit, filter⟩ =
        some (.ok (near.take (max limit 1))) := by
  have indexed : collection.index.dimension = dimension :=
    recorded.coherent.indexed.trans recorded.dimension
  obtain ⟨k, fetches, fetched⟩ := Option.bind_eq_some_iff.mp fetched
  obtain ⟨ef, doubles, same⟩ := Option.bind_eq_some_iff.mp fetched
  cases same
  obtain ⟨ranked, perm, ordered, searched, raw, answers, selected⟩ :=
    recorded.search exact fits (Filter.orDefault filter) k ef
  have candidates : collection.Candidates query (Filter.orDefault filter)
      (ranked.filterMap
        (collection.answerFor query (Filter.orDefault filter))) :=
    recorded.ranked perm ordered
  rw [← List.take_append_drop (max k 1) ranked,
    List.filterMap_append] at candidates
  refine ⟨_, _, candidates, ?_, ?_⟩
  · rw [searched, List.countP_map, List.length_filterMap_eq_countP]
    apply List.countP_congr
    intro entry _
    rw [answerFor_isSome]
    rfl
  · have searches : searchIn collection.index query (max k 1) none =
        some (.ok raw) := by
      unfold searchIn
      rw [if_neg (by rw [indexed]; exact not_not.mpr fits), doubles,
        Option.bind_eq_bind, Option.bind_some, Option.getD_none, answers]
    unfold queryPoints
    rw [found]
    dsimp only
    rw [fetches, Option.bind_eq_bind, Option.bind_some, searches]
    show some (Except.ok (collect limit
      (collection.answered (Filter.orDefault filter)) [] raw)) = _
    rw [collect_eq, selected]

end

section

attribute [local instance] QdrantPlatform.integral Platform.integral

theorem hnswExact_integral : HnswExact := by
  intro m nbElem nbLayer efConstruction points query knbn ef
  rw [hnswOf_integral]
  refine ⟨points.mergeSort fun a b =>
    squaredDistance query a.1 ≤ squaredDistance query b.1,
    List.mergeSort_perm _ _, ?_, rfl⟩
  have ordered : (points.mergeSort fun a b =>
      squaredDistance query a.1 ≤ squaredDistance query b.1).Pairwise
        fun a b => decide
          (squaredDistance query a.1 ≤ squaredDistance query b.1) = true := by
    refine List.pairwise_mergeSort ?_ ?_ points
    · intro a b c
      rw [decide_eq_true_eq, decide_eq_true_eq, decide_eq_true_eq]
      exact Int.le_trans
    · intro a b
      rw [Bool.or_eq_true, decide_eq_true_eq, decide_eq_true_eq]
      exact Int.le_total _ _
  refine ordered.imp ?_
  intro a b order
  exact decide_eq_false (Int.not_lt.mpr (of_decide_eq_true order))

theorem neighbours_twoPoints :
    (twoPoints.foldl Collection.perform (.new 1 .cosine none)).neighbours
      (integers [1]) 1 (Filter.orDefault none) = some [(0, (0 : Int))] := by
  show some ((nearest [([1], 0), ([2], 1)] [1] 1).map fun point =>
    (point.2, squaredDistance [1] point.1)) = _
  unfold nearest
  rw [List.mergeSort_of_pairwise (by decide)]
  rfl

/-- A point whose vector was replaced seventeen times. -/
def replaced : List Collection.Change :=
  List.replicate 17 (.upsert (.int 1) (integers [1]) (.object [])) ++
    [.upsert (.int 1) (integers [5]) (.object [])]

theorem passing_replaced :
    ((replaced.foldl Collection.perform (.new 1 .cosine none)).passing
      ⟨some [], none, none⟩).card = 1 :=
  rfl

def replacedState : QdrantState where
  collections := (∅ : HashMap Name Collection).insert ['a']
    (replaced.foldl Collection.perform (.new 1 .cosine none))
  files := ∅

/-- The vectors that are gone are all that is fetched. -/
theorem neighbours_replaced :
    (replaced.foldl Collection.perform (.new 1 .cosine none)).neighbours
      (integers [1]) 1 ⟨some [], none, none⟩ =
        some ((List.range 17).map fun uid => (uid, (0 : Int))) := by
  show some ((nearest ((List.range 17).map (fun uid => ([1], uid)) ++
    [([5], 17)]) [1] 17).map fun point =>
      (point.2, squaredDistance [1] point.1)) = _
  unfold nearest
  rw [List.mergeSort_of_pairwise (by decide)]
  rfl

end

end RedVector.Qdrant
