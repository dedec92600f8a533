import RedVector.VectorSearch.HnswVectorIndex

/-!
# Upserts of the REST and the gRPC API

Both front ends add the points of a request to the index one by one.  The index
refuses an id that it has, so that an id keeps the first of its vectors.
-/

namespace RedVector.VectorSearch

open Effect HnswVectorIndex Util

section

variable [VectorPlatform]

structure PointInput where
  id : Nat
  vector : Vector32

/-- The collections of both APIs. -/
structure ApiState where
  indexes : HashMap Bytes HnswVectorIndex

/-- A request through one of the APIs. -/
inductive UpsertRequest where
  | rest (points : List PointInput)
  | grpc (points : List PointInput)

def UpsertRequest.points : UpsertRequest → List PointInput
  | rest points | grpc points => points

/-- The data of the answer of the REST API. -/
structure Upserted where
  upserted : Nat
  errors : List Bytes

inductive UpsertAnswer where
  | rest (success : Bool) (data : Option Upserted) (error : Option Bytes)
  | grpc (success : Bool) (upsertedCount : Nat)
  | grpcNotFound (message : Bytes)

def UpsertAnswer.count : UpsertAnswer → Option Nat
  | rest _ data _ => data.map Upserted.upserted
  | grpc _ upsertedCount => some upsertedCount
  | grpcNotFound _ => none

/-- The loop of `upsert_points`.  What the counter counts fits in a request,
whose size is bounded. -/
def addEach (index : HnswVectorIndex) (counted : Upserted) :
    List PointInput → HnswVectorIndex × Upserted
  | [] => (index, counted)
  | point :: rest =>
      match index.add point.id point.vector with
      | .ok after =>
          addEach after { counted with upserted := counted.upserted + 1 } rest
      | .error error =>
          addEach index { counted with
            errors := counted.errors ++ [text "Point " ++
              natToString point.id ++ text ": " ++ error] } rest

/-- The loop of `upsert`. -/
def countEach (index : HnswVectorIndex) (upserted : Nat) :
    List PointInput → HnswVectorIndex × Nat
  | [] => (index, upserted)
  | point :: rest =>
      match index.add point.id point.vector with
      | .ok after => countEach after (upserted + 1) rest
      | .error _ => countEach index upserted rest

def collectionNotFound (name : Bytes) : Bytes :=
  text "Collection '" ++ name ++ text "' not found"

namespace ApiState

/-- `upsert_points`. -/
def upsertPoints (state : ApiState) (name : Bytes)
    (points : List PointInput) : UpsertAnswer × ApiState :=
  match state.indexes.lookup name with
  | some index =>
      let (after, counted) := addEach index ⟨0, []⟩ points
      (.rest counted.errors.isEmpty (some counted) none,
        { indexes := state.indexes.insert name after })
  | none => (.rest false none (some (collectionNotFound name)), state)

/-- `VectorServiceImpl::upsert`. -/
def upsert (state : ApiState) (name : Bytes) (points : List PointInput) :
    UpsertAnswer × ApiState :=
  match state.indexes.lookup name with
  | some index =>
      let (after, upserted) := countEach index 0 points
      (.grpc true upserted, { indexes := state.indexes.insert name after })
  | none => (.grpcNotFound (collectionNotFound name), state)

def handle (state : ApiState) (name : Bytes) :
    UpsertRequest → UpsertAnswer × ApiState
  | .rest points => state.upsertPoints name points
  | .grpc points => state.upsert name points

def run (state : ApiState) (name : Bytes) (requests : List UpsertRequest) :
    ApiState :=
  requests.foldl (fun state request => (state.handle name request).2) state

end ApiState

/-! ## What should hold -/

/-- How many points take effect: the number of their id changes. -/
def effective (index : HnswVectorIndex) : List PointInput → Nat
  | [] => 0
  | point :: rest =>
      let after := (index.apply (.add point.id point.vector)).2
      (if index.docIdMap.lookup point.id = after.docIdMap.lookup point.id
        then 0 else 1) + effective after rest

/-- The vectors of the right dimension that were upserted under an id. -/
def vectorsOf (dimension id : Nat) (points : List PointInput) :
    List Vector32 :=
  (points.filter fun point =>
    point.id = id ∧ point.vector.length = dimension).map PointInput.vector

/-- A vector of the graph stands for an id. -/
def Searchable (index : HnswVectorIndex) (points : List (Vector32 × Nat))
    (id : Nat) (vector : Vector32) : Prop :=
  ∃ internalId, index.docIdMap.lookup id = some internalId ∧
    index.idToDoc.lookup internalId = some id ∧ (vector, internalId) ∈ points

def adds (points : List PointInput) : List Call :=
  points.map fun point => .add point.id point.vector

/-- The answers count the points that take effect. -/
def CountsEffective (state : ApiState) (name : Bytes)
    (requests : List UpsertRequest) : Prop :=
  ∀ before request after, requests = before ++ request :: after →
    ∃ index, (state.run name before).indexes.lookup name = some index ∧
      ((state.run name before).handle name request).1.count =
        some (effective index request.points)

variable {index : HnswVectorIndex} {state : ApiState} {name : Bytes}

/-! ## Both front ends -/

/-- An addition that succeeds takes effect, and no other one. -/
theorem effective_cons (index : HnswVectorIndex) (point : PointInput)
    (rest : List PointInput) :
    effective index (point :: rest) =
      match index.add point.id point.vector with
      | .ok after => 1 + effective after rest
      | .error _ => effective index rest := by
  have applied := apply_add index point.id point.vector
  rw [effective]
  cases added : index.add point.id point.vector with
  | error error =>
      rw [added] at applied
      rw [applied]
      simp
  | ok after =>
      obtain ⟨-, absent, -⟩ := add_ok added
      obtain ⟨-, known⟩ := inserted_add added
      rw [added] at applied
      rw [applied]
      dsimp only
      rw [known, Finmap.lookup_eq_none.mpr absent]
      simp

theorem run_adds_cons (index : HnswVectorIndex) (point : PointInput)
    (rest : List PointInput) :
    index.run (adds (point :: rest)) =
      match index.add point.id point.vector with
      | .ok after => after.run (adds rest)
      | .error _ => index.run (adds rest) := by
  show (index.apply (.add point.id point.vector)).2.run (adds rest) = _
  rw [apply_add]
  cases index.add point.id point.vector with
  | error error => rfl
  | ok after => rfl

theorem addEach_run (index : HnswVectorIndex) (counted : Upserted)
    (points : List PointInput) :
    (addEach index counted points).1 = index.run (adds points) ∧
      (addEach index counted points).2.upserted =
        counted.upserted + effective index points := by
  induction points generalizing index counted with
  | nil => exact ⟨rfl, rfl⟩
  | cons point rest ih =>
      rw [addEach, effective_cons, run_adds_cons]
      cases index.add point.id point.vector with
      | error error => exact ih index _
      | ok after =>
          obtain ⟨same, count⟩ :=
            ih after { counted with upserted := counted.upserted + 1 }
          exact ⟨same, count.trans (Nat.add_assoc _ _ _)⟩

theorem countEach_run (index : HnswVectorIndex) (upserted : Nat)
    (points : List PointInput) :
    countEach index upserted points =
      (index.run (adds points), upserted + effective index points) := by
  induction points generalizing index upserted with
  | nil => rfl
  | cons point rest ih =>
      rw [countEach, effective_cons, run_adds_cons]
      cases index.add point.id point.vector with
      | error error => exact ih index upserted
      | ok after =>
          dsimp only
          rw [ih after (upserted + 1), Nat.add_assoc]

/-- Either front end adds the points and counts those that take effect. -/
theorem handle_spec (found : state.indexes.lookup name = some index)
    (request : UpsertRequest) :
    (state.handle name request).1.count =
        some (effective index request.points) ∧
      (state.handle name request).2.indexes.lookup name =
        some (index.run (adds request.points)) := by
  cases request with
  | rest points =>
      obtain ⟨same, count⟩ := addEach_run index ⟨0, []⟩ points
      simp only [ApiState.handle, ApiState.upsertPoints, found]
      refine ⟨?_, ?_⟩
      · show some (addEach index ⟨0, []⟩ points).2.upserted = _
        rw [count, Nat.zero_add]
        rfl
      · rw [Finmap.lookup_insert, same]
        rfl
  | grpc points =>
      simp only [ApiState.handle, ApiState.upsert, found, countEach_run]
      refine ⟨?_, Finmap.lookup_insert _⟩
      show some (0 + effective index points) = _
      rw [Nat.zero_add]
      rfl

theorem run_spec (found : state.indexes.lookup name = some index)
    (requests : List UpsertRequest) :
    (state.run name requests).indexes.lookup name =
      some (index.run (adds (requests.flatMap UpsertRequest.points))) := by
  induction requests generalizing state index with
  | nil => exact found
  | cons request rest ih =>
      rw [List.flatMap_cons, adds, List.map_append, run_append]
      exact ih (handle_spec found request).2

theorem counts_effective (found : state.indexes.lookup name = some index)
    (requests : List UpsertRequest) :
    CountsEffective state name requests := by
  intro before request after _
  have here := run_spec found before
  exact ⟨_, here, (handle_spec here request).1⟩

/-! ## What an id keeps -/

theorem vectorsOf_concat (dimension id : Nat) (points : List PointInput)
    (point : PointInput) :
    vectorsOf dimension id (points ++ [point]) =
      vectorsOf dimension id points ++
        if point.id = id ∧ point.vector.length = dimension then
          [point.vector] else [] := by
  unfold vectorsOf
  rw [List.filter_append, List.map_append]
  congr 1
  split
  · rename_i right
    rw [List.filter_singleton, decide_eq_true right]
    rfl
  · rename_i wrong
    rw [List.filter_singleton, decide_eq_false wrong]
    rfl

/-- An id has a number from its first vector on, and keeps that vector. -/
structure Keeps (dimension : Nat) (index : HnswVectorIndex)
    (points : List (Vector32 × Nat)) (seen : List PointInput) : Prop where
  kept : index.Kept
  sized : index.dimension = dimension
  unknown : ∀ id, vectorsOf dimension id seen = [] →
    index.docIdMap.lookup id = none
  first : ∀ id vector, (vectorsOf dimension id seen).head? = some vector →
    ∃ internalId, index.docIdMap.lookup id = some internalId ∧
      (vector, internalId) ∈ points

variable {dimension : Nat} {points : List (Vector32 × Nat)}
  {seen : List PointInput}

theorem Keeps.known (keeps : Keeps dimension index points seen) {id : Nat} :
    id ∈ index.docIdMap ↔ vectorsOf dimension id seen ≠ [] := by
  rw [Finmap.mem_iff]
  constructor
  · rintro ⟨internalId, known⟩ none
    rw [keeps.unknown id none] at known
    cases known
  · intro some
    obtain ⟨vector, rest, listing⟩ := List.exists_cons_of_ne_nil some
    have head : (vectorsOf dimension id seen).head? = .some vector := by
      rw [listing]
      rfl
    obtain ⟨internalId, known, -⟩ := keeps.first id vector head
    exact ⟨internalId, known⟩

/-- A point that the index refuses leaves everything as it is. -/
theorem Keeps.refuse (keeps : Keeps dimension index points seen)
    {point : PointInput}
    (refused : point.vector.length = dimension → point.id ∈ index.docIdMap) :
    Keeps dimension index points (seen ++ [point]) := by
  have same : ∀ id, (vectorsOf dimension id (seen ++ [point])).head? =
      (vectorsOf dimension id seen).head? := by
    intro id
    rw [vectorsOf_concat]
    split
    · rename_i right
      obtain ⟨rfl, fits⟩ := right
      have some := keeps.known.mp (refused fits)
      obtain ⟨vector, rest, listing⟩ := List.exists_cons_of_ne_nil some
      rw [listing]
      rfl
    · rw [List.append_nil]
  refine ⟨keeps.kept, keeps.sized, ?_, ?_⟩
  · intro id none
    have before := same id
    rw [none] at before
    exact keeps.unknown id (List.head?_eq_none_iff.mp before.symm)
  · intro id vector head
    rw [same] at head
    exact keeps.first id vector head

theorem Keeps.add (keeps : Keeps dimension index points seen)
    (point : PointInput) :
    Keeps dimension (index.apply (.add point.id point.vector)).2
      (points ++ (index.inserted (.add point.id point.vector)).toList)
      (seen ++ [point]) := by
  have applied := apply_add index point.id point.vector
  cases added : index.add point.id point.vector with
  | error error =>
      rw [added] at applied
      have nothing : index.inserted (.add point.id point.vector) = none := by
        unfold HnswVectorIndex.inserted given
        dsimp only
        rw [added]
        rfl
      rw [applied, nothing, Option.toList_none, List.append_nil]
      refine keeps.refuse ?_
      intro fits
      by_contra absent
      obtain ⟨after, adds⟩ :=
        add_succeeds (fits.trans keeps.sized.symm) absent
      rw [added] at adds
      cases adds
  | ok after =>
      rw [added] at applied
      obtain ⟨inserts, known⟩ := inserted_add added
      obtain ⟨fits, absent, grown⟩ := add_ok added
      have right : point.vector.length = dimension := fits.trans keeps.sized
      have fresh : vectorsOf dimension point.id seen = [] := by
        by_contra some
        exact absent (keeps.known.mpr some)
      rw [applied, inserts, Option.toList_some]
      refine ⟨keeps.kept.add added, ?_, ?_, ?_⟩
      · rw [grown]
        exact keeps.sized
      · intro id none
        rw [vectorsOf_concat] at none
        obtain ⟨before, other⟩ := List.append_eq_nil_iff.mp none
        have different : id ≠ point.id := by
          rintro rfl
          rw [if_pos ⟨rfl, right⟩] at other
          cases other
        rw [grown]
        exact (Finmap.lookup_insert_of_ne _ different).trans
          (keeps.unknown id before)
      · intro id vector head
        rw [vectorsOf_concat] at head
        by_cases same : id = point.id
        · subst same
          rw [fresh, if_pos ⟨rfl, right⟩] at head
          cases head
          refine ⟨index.nextId, known, ?_⟩
          exact List.mem_append_right _ (List.mem_singleton_self _)
        · rw [if_neg (fun right => same right.1.symm), List.append_nil] at head
          obtain ⟨internalId, here, among⟩ := keeps.first id vector head
          refine ⟨internalId, ?_, List.mem_append_left _ among⟩
          rw [grown]
          exact (Finmap.lookup_insert_of_ne _ same).trans here

theorem Keeps.run (keeps : Keeps dimension index points seen)
    (more : List PointInput) :
    Keeps dimension (index.run (adds more))
      (points ++ index.insertions (adds more)) (seen ++ more) := by
  induction more generalizing index points seen with
  | nil =>
      simp only [adds, List.map_nil, insertions, List.append_nil]
      exact keeps
  | cons point rest ih =>
      have later := ih (keeps.add point)
      rw [List.append_assoc, List.append_assoc] at later
      exact later

theorem keeps_new (dimension : Nat) (metric : VectorMetric)
    (m efConstruction : Option Nat) :
    Keeps dimension (new dimension metric m efConstruction) [] [] where
  kept := kept_new dimension metric m efConstruction
  sized := rfl
  unknown := fun _ _ => rfl
  first := by
    intro id vector head
    cases head

/-- Every id is found with its last vector exactly if that is its first. -/
theorem Keeps.searchable_iff (keeps : Keeps dimension index points seen)
    (once : (points.map Prod.snd).Nodup) :
    (∀ id vector, (vectorsOf dimension id seen).getLast? = some vector →
      Searchable index points id vector) ↔
    ∀ id, (vectorsOf dimension id seen).head? =
      (vectorsOf dimension id seen).getLast? := by
  constructor
  · intro searchable id
    cases head : (vectorsOf dimension id seen).head? with
    | none =>
        rw [List.head?_eq_none_iff.mp head]
        rfl
    | some vector =>
        obtain ⟨internalId, known, among⟩ := keeps.first id vector head
        have some : vectorsOf dimension id seen ≠ [] := by
          intro none
          rw [none] at head
          cases head
        have last := List.getLast?_eq_some_getLast some
        obtain ⟨other, here, -, found⟩ := searchable id _ last
        rw [known] at here
        cases here
        have same := List.inj_on_of_nodup_map once among found rfl
        rw [last, (Prod.mk.inj same).1]
  · intro same id vector last
    rw [← same] at last
    obtain ⟨internalId, known, among⟩ := keeps.first id vector last
    exact ⟨internalId, known,
      (keeps.kept.bookkept.inverses id internalId).mp known, among⟩

/-- After any requests to a new collection the answers have counted the points
that took effect, and every id is found with the last of its vectors exactly if
the first and the last one are the same. -/
theorem upserts_iff (dimension : Nat) (metric : VectorMetric)
    (m efConstruction : Option Nat)
    (found : state.indexes.lookup name =
      some (new dimension metric m efConstruction))
    (requests : List UpsertRequest) :
    let seen := requests.flatMap UpsertRequest.points
    let points :=
      (new dimension metric m efConstruction).insertions (adds seen)
    ∃ index, (state.run name requests).indexes.lookup name = some index ∧
      index.index = hnswOf (m.getD 16) 1000000 16 (efConstruction.getD 200)
        points ∧
      (points.map Prod.snd).Nodup ∧
      ((CountsEffective state name requests ∧
        ∀ id vector, (vectorsOf dimension id seen).getLast? = some vector →
          Searchable index points id vector) ↔
      ∀ id, (vectorsOf dimension id seen).head? =
        (vectorsOf dimension id seen).getLast?) := by
  intro seen points
  have once : (points.map Prod.snd).Nodup := by
    rw [insertions_numbers]
    exact givenAll_nodup _ _
  have keeps := (keeps_new dimension metric m efConstruction).run seen
  have iff := keeps.searchable_iff once
  have graph : (new dimension metric m efConstruction).index =
      hnswOf (m.getD 16) 1000000 16 (efConstruction.getD 200) [] := rfl
  refine ⟨_, run_spec found requests, run_graph graph (adds seen), once, ?_⟩
  exact ⟨fun both => iff.mp both.2, fun same =>
    ⟨counts_effective found requests, iff.mpr same⟩⟩

end

section

attribute [local instance] VectorPlatform.integral

/-- A collection of dimension one. -/
def newCollection : ApiState where
  indexes := (∅ : HashMap Bytes HnswVectorIndex).insert (text "c")
    (new 1 .cosine (some 16) (some 200))

def newPoint : List UpsertRequest :=
  [.rest [⟨7, integers [1]⟩]]

/-- A point is upserted and then upserted again with another vector. -/
def replacedPoint : List UpsertRequest :=
  [.rest [⟨7, integers [1]⟩], .grpc [⟨7, integers [2]⟩]]

theorem upserts_new :
    let points := (new 1 .cosine (some 16) (some 200)).insertions
      (adds (newPoint.flatMap UpsertRequest.points))
    ∃ index, (newCollection.run (text "c") newPoint).indexes.lookup (text "c") =
        some index ∧
      CountsEffective newCollection (text "c") newPoint ∧
      Searchable index points 7 (integers [1]) := by
  intro points
  obtain ⟨index, found, -, -, iff⟩ := upserts_iff 1 .cosine (some 16)
    (some 200) (Finmap.lookup_insert _ : newCollection.indexes.lookup
      (text "c") = _) newPoint
  have same : ∀ id,
      (vectorsOf 1 id (newPoint.flatMap UpsertRequest.points)).head? =
        (vectorsOf 1 id (newPoint.flatMap UpsertRequest.points)).getLast? := by
    intro id
    by_cases seven : (7 : Nat) = id
    · subst seven
      rfl
    · simp [vectorsOf, newPoint, UpsertRequest.points, seven]
  obtain ⟨counts, searchable⟩ := iff.mpr same
  exact ⟨index, found, counts, searchable 7 _ rfl⟩

/-- The second request is not counted, and the graph keeps the first
vector. -/
theorem upserts_keep_first :
    let seen := replacedPoint.flatMap UpsertRequest.points
    let points := (new 1 .cosine (some 16) (some 200)).insertions (adds seen)
    (vectorsOf 1 7 seen).getLast? = some (integers [2]) ∧
      points = [(integers [1], 0)] ∧
      ∃ index, (newCollection.run (text "c") replacedPoint).indexes.lookup
          (text "c") = some index ∧
        index.index = [(integers [1], 0)] ∧
        ¬Searchable index points 7 (integers [2]) := by
  intro seen points
  have kept : points = [(integers [1], 0)] := rfl
  have found := run_spec (Finmap.lookup_insert _ :
    newCollection.indexes.lookup (text "c") = _) replacedPoint
  refine ⟨rfl, kept, _, found, rfl, ?_⟩
  rintro ⟨internalId, -, -, among⟩
  rw [kept] at among
  have same : ([2] : List Int) = [1] :=
    congrArg Prod.fst (List.mem_singleton.mp among)
  exact absurd same (by decide)

end

end RedVector.VectorSearch
