import RedVector.Qdrant.Api
import RedVector.Qdrant.Coherence

/-!
# Reading points

The requests of the Qdrant API that read the points of a collection.
-/

namespace RedVector.Qdrant

open Effect Util VectorSearch

section

section Collect

variable {α β : Type}

/-- The loop over candidates: what is selected is pushed, and then the limit is
tested. -/
def collect (limit : Nat) (select : α → Option β) :
    List β → List α → List β
  | points, [] => points
  | points, candidate :: rest =>
      match select candidate with
      | none => collect limit select points rest
      | some point =>
          if limit ≤ (points ++ [point]).length then points ++ [point]
          else collect limit select (points ++ [point]) rest

theorem collect_from {limit : Nat} {select : α → Option β} {points : List β}
    (room : points.length < max limit 1) (candidates : List α) :
    collect limit select points candidates = points ++
      (candidates.filterMap select).take (max limit 1 - points.length) := by
  induction candidates generalizing points with
  | nil => simp [collect]
  | cons candidate rest ih =>
      rw [collect]
      cases selected : select candidate with
      | none =>
          rw [List.filterMap_cons_none selected]
          exact ih room
      | some point =>
          rw [List.filterMap_cons_some selected]
          have length : (points ++ [point]).length = points.length + 1 := by
            simp
          dsimp only
          split
          · rename_i full
            have last : max limit 1 - points.length = 1 := by omega
            rw [last, List.take_succ_cons, List.take_zero]
          · rename_i more
            have left : max limit 1 - points.length =
                (max limit 1 - (points ++ [point]).length) + 1 := by omega
            rw [ih (by omega), left, List.take_succ_cons, List.append_assoc]
            rfl

/-- The first point is pushed whatever the limit is. -/
theorem collect_eq (limit : Nat) (select : α → Option β)
    (candidates : List α) :
    collect limit select [] candidates =
      (candidates.filterMap select).take (max limit 1) := by
  rw [collect_from (by simp)]
  rfl

end Collect

variable [QdrantPlatform]

def Filter.isEmpty (filter : Filter) : Bool :=
  filter.must.isNone && filter.should.isNone && filter.mustNot.isNone

/-- `unwrap_or_default`. -/
def Filter.orDefault (filter : Option Filter) : Filter :=
  filter.getD ⟨none, none, none⟩

/-- An empty filter is not looked at. -/
def Filter.admits (filter : Filter) (payload : Json) : Bool :=
  filter.isEmpty || passesFilter payload filter

/-- What is answered for a point; its vector is always null. -/
structure ReadPoint where
  id : PointId
  payload : Json

/-! ## Scrolling -/

structure ScrollRequest where
  filter : Option Filter
  limit : Nat
  offset : Option Json

structure Page where
  points : List ReadPoint
  nextPageOffset : Json

/-- The offset is not used.  The points are in the order in which their map
lists them. -/
def scrollPoints (listing : Listing PointId) (state : QdrantState)
    (name : Name) (request : ScrollRequest) : Except Answer Page :=
  match state.collections.lookup name with
  | none => .error (missing name)
  | some collection =>
      let filter := Filter.orDefault request.filter
      let points := collect request.limit
        (fun (id, stored) =>
          if filter.admits stored.payload then some ⟨id, stored.payload⟩
          else none)
        [] (listing.entries collection.points)
      .ok { points := points, nextPageOffset := .null }

/-! ## Querying -/

structure QueryRequest where
  query : Option Vector32
  limit : Nat
  filter : Option Filter

structure ScoredPoint extends ReadPoint where
  score : F32

/-- A cosine distance becomes a similarity. -/
def Collection.scoreFromDistance (collection : Collection) (distance : F32) :
    F32 :=
  match collection.distance with
  | .cosine | .innerProduct => VectorPlatform.f32OneMinus distance
  | .euclidean => distance

/-- How many neighbours are fetched; more than the limit with a filter. -/
def fetchK [Platform] (limit : Nat) (filter : Filter) : Option Nat :=
  if filter.isEmpty then some limit
  else do
    let fourfold ← usize (limit * 4 : Nat)
    let more ← usize (limit + 16 : Nat)
    some (max fourfold more)

/-- `search` in a build; the default for `ef_search` is computed in any
case. -/
def searchIn [Platform] (index : HnswVectorIndex) (queryVector : Vector32)
    (k : Nat) (efSearch : Option Nat) :
    Option (Except Bytes (List (Nat × F32))) :=
  if queryVector.length ≠ index.dimension then
    some (index.search queryVector k efSearch)
  else do
    let efDefault ← usize (max k 10 * 2 : Nat)
    some (index.search queryVector k (some (efSearch.getD efDefault)))

/-- The point that stands behind a neighbour, if the filter admits it. -/
def Collection.answered (collection : Collection) (filter : Filter) :
    Nat × F32 → Option ScoredPoint
  | (uid, distance) => do
      let id ← collection.uidToId.lookup uid
      let stored ← collection.points.lookup id
      if filter.admits stored.payload then
        some { id := id
               payload := stored.payload
               score := collection.scoreFromDistance distance }
      else none

/-- `none` is an overflow. -/
def queryPoints [Platform] (state : QdrantState) (name : Name)
    (request : QueryRequest) : Option (Except Answer (List ScoredPoint)) :=
  match state.collections.lookup name with
  | none => some (.error (missing name))
  | some collection =>
      match request.query with
      | none => some (.error (.badRequest (text "query vector is required")))
      | some query => do
          let filter := Filter.orDefault request.filter
          let k ← fetchK request.limit filter
          match ← searchIn collection.index query (max k 1) none with
          | .error error => some (.error (.badRequest error))
          | .ok raw => some (.ok
              (collect request.limit (collection.answered filter) [] raw))

end

/-!
## Scrolling

There is one page: scrolling on from it, whatever the offset, sees the points
of one request.
-/

section

variable [QdrantPlatform]

/-- A filter without clauses is passed by everything. -/
theorem Filter.admits_eq (filter : Filter) (payload : Json) :
    filter.admits payload = passesFilter payload filter := by
  unfold Filter.admits
  cases empty : filter.isEmpty with
  | false => rfl
  | true =>
      unfold Filter.isEmpty at empty
      simp only [Bool.and_eq_true, Option.isNone_iff_eq_none] at empty
      obtain ⟨⟨must, should⟩, mustNot⟩ := empty
      simp [passesFilter, must, should, mustNot]

/-- The ids of the points that pass a filter. -/
def Collection.passing (collection : Collection) (filter : Filter) :
    Finset PointId :=
  collection.points.keys.filter fun id =>
    (collection.points.lookup id).any fun stored =>
      passesFilter stored.payload filter

theorem Collection.mem_passing {collection : Collection} {filter : Filter}
    {id : PointId} : id ∈ collection.passing filter ↔
      ∃ stored, collection.points.lookup id = some stored ∧
        passesFilter stored.payload filter = true := by
  unfold Collection.passing
  rw [Finset.mem_filter, Finmap.mem_keys, Finmap.mem_iff]
  constructor
  · rintro ⟨⟨stored, found⟩, passes⟩
    rw [found] at passes
    exact ⟨stored, found, passes⟩
  · rintro ⟨stored, found, passes⟩
    refine ⟨⟨stored, found⟩, ?_⟩
    rw [found]
    exact passes

/-- Requests page after page, as long as there is an offset to go on from. -/
def scrollAll (listing : Listing PointId) (state : QdrantState) (name : Name) :
    Nat → ScrollRequest → Except Answer (List Page)
  | 0, _ => .ok []
  | rounds + 1, request =>
      match scrollPoints listing state name request with
      | .error answer => .error answer
      | .ok page =>
          match page.nextPageOffset with
          | .null => .ok [page]
          | offset =>
              (scrollAll listing state name rounds
                { request with offset := some offset }).map (page :: ·)

variable {state : QdrantState} {name : Name}
  {collection : Collection}

/-- What a request finds are the points that pass, in their order, up to the
limit. -/
theorem scrollPoints_ids (listing : Listing PointId)
    (found : state.collections.lookup name = some collection)
    (request : ScrollRequest) :
    ∃ (points : List ReadPoint) (ids : List PointId),
      scrollPoints listing state name request =
        .ok { points := points, nextPageOffset := .null } ∧
      ids.Nodup ∧ (∀ id, id ∈ ids ↔
        id ∈ collection.passing (Filter.orDefault request.filter)) ∧
      points.map ReadPoint.id = ids.take (max request.limit 1) ∧
      ∀ point ∈ points, ∃ stored,
        collection.points.lookup point.id = some stored ∧
          point.payload = stored.payload := by
  let filter := Filter.orDefault request.filter
  let select : PointId × StoredPoint → Option ReadPoint := fun (id, stored) =>
    if filter.admits stored.payload then some ⟨id, stored.payload⟩ else none
  let entries := listing.entries collection.points
  have selects : ∀ entry point, select entry = some point ↔
      passesFilter entry.2.payload filter = true ∧
        point = ⟨entry.1, entry.2.payload⟩ := by
    intro entry point
    show (if filter.admits entry.2.payload then
      some (⟨entry.1, entry.2.payload⟩ : ReadPoint) else none) = _ ↔ _
    rw [Filter.admits_eq]
    split
    · rename_i passes
      simp [passes, eq_comm]
    · rename_i fails
      simp [fails]
  have origin : ∀ point ∈ entries.filterMap select, ∃ stored,
      collection.points.lookup point.id = some stored ∧
        passesFilter stored.payload filter = true ∧
        point.payload = stored.payload := by
    intro point member
    obtain ⟨entry, listed, selected⟩ := List.mem_filterMap.mp member
    obtain ⟨passes, rfl⟩ := (selects entry point).mp selected
    exact ⟨entry.2, (listing.mem_entries _ _ _).mp listed, passes, rfl⟩
  refine ⟨(entries.filterMap select).take (max request.limit 1),
    (entries.filterMap select).map ReadPoint.id, ?_, ?_, ?_, ?_, ?_⟩
  · unfold scrollPoints
    rw [found]
    dsimp only
    rw [← collect_eq]
  · have distinct := listing.nodup_entries collection.points
    rw [List.Nodup, List.pairwise_map] at distinct
    rw [List.Nodup, List.pairwise_map, List.pairwise_filterMap]
    refine distinct.imp ?_
    intro a b different first selectsA second selectsB
    obtain ⟨-, rfl⟩ := (selects a first).mp selectsA
    obtain ⟨-, rfl⟩ := (selects b second).mp selectsB
    exact different
  · intro id
    rw [Collection.mem_passing, List.mem_map]
    constructor
    · rintro ⟨point, member, rfl⟩
      obtain ⟨stored, known, passes, -⟩ := origin point member
      exact ⟨stored, known, passes⟩
    · rintro ⟨stored, known, passes⟩
      refine ⟨⟨id, stored.payload⟩, List.mem_filterMap.mpr ⟨(id, stored),
        (listing.mem_entries _ _ _).mpr known, ?_⟩, rfl⟩
      exact (selects (id, stored) _).mpr ⟨passes, rfl⟩
  · rw [List.map_take]
  · intro point member
    obtain ⟨stored, known, -, same⟩ :=
      origin point (List.mem_of_mem_take member)
    exact ⟨stored, known, same⟩

/-- One page is everything that scrolling sees: points that pass, each once,
up to the limit. -/
theorem scrollAll_page (listing : Listing PointId)
    (found : state.collections.lookup name = some collection)
    (request : ScrollRequest) :
    ∃ points : List ReadPoint,
      (∀ rounds, scrollAll listing state name (rounds + 1) request =
        .ok [{ points := points, nextPageOffset := .null }]) ∧
      (points.map ReadPoint.id).Nodup ∧
      points.length = min (max request.limit 1)
        (collection.passing (Filter.orDefault request.filter)).card ∧
      ∀ point ∈ points, ∃ stored,
        collection.points.lookup point.id = some stored ∧
          point.payload = stored.payload ∧
          passesFilter stored.payload
            (Filter.orDefault request.filter) = true := by
  obtain ⟨points, ids, scrolls, once, members, shown, stored⟩ :=
    scrollPoints_ids listing found request
  have count : ids.length =
      (collection.passing (Filter.orDefault request.filter)).card := by
    rw [← List.toFinset_card_of_nodup once]
    congr 1
    ext id
    rw [List.mem_toFinset, members]
  refine ⟨points, ?_, ?_, ?_, ?_⟩
  · intro rounds
    rw [scrollAll, scrolls]
  · rw [shown]
    exact once.sublist (List.take_sublist _ _)
  · rw [← List.length_map (f := ReadPoint.id), shown, List.length_take, count]
  · intro point member
    obtain ⟨known, here, payload⟩ := stored point member
    have among : point.id ∈ ids := by
      have taken := List.mem_map_of_mem (f := ReadPoint.id) member
      rw [shown] at taken
      exact List.mem_of_mem_take taken
    obtain ⟨same, there, passes⟩ :=
      Collection.mem_passing.mp ((members _).mp among)
    rw [here] at there
    cases there
    exact ⟨known, here, payload, passes⟩

/-- With a limit, from any offset, scrolling sees one page with as many points
as there are up to the limit, and all of them if they are not more. -/
theorem scrollAll_once (listing : Listing PointId)
    (found : state.collections.lookup name = some collection)
    (filter : Option Filter) {limit : Nat} (positive : 0 < limit)
    (offset : Option Json) (rounds : Nat) :
    let passing := collection.passing (Filter.orDefault filter)
    ∃ page, scrollAll listing state name (rounds + 1)
        ⟨filter, limit, offset⟩ = .ok [page] ∧
      page.nextPageOffset = .null ∧
      (page.points.map ReadPoint.id).Nodup ∧
      (∀ point ∈ page.points, ∃ stored,
        collection.points.lookup point.id = some stored ∧
          point.payload = stored.payload ∧
          passesFilter stored.payload (Filter.orDefault filter) = true) ∧
      page.points.length = min limit passing.card ∧
      ((∀ id ∈ passing, id ∈ page.points.map ReadPoint.id) ↔
        passing.card ≤ limit) := by
  intro passing
  obtain ⟨points, scrolls, once, length, stored⟩ :=
    scrollAll_page listing found ⟨filter, limit, offset⟩
  have bounded : points.length = min limit passing.card := by
    rw [length, Nat.max_eq_left positive]
  refine ⟨_, scrolls rounds, rfl, once, stored, bounded, ?_⟩
  have within : (points.map ReadPoint.id).toFinset ⊆ passing := by
    intro id member
    obtain ⟨point, among, rfl⟩ :=
      List.mem_map.mp (List.mem_toFinset.mp member)
    obtain ⟨known, here, -, passes⟩ := stored point among
    exact Collection.mem_passing.mpr ⟨known, here, passes⟩
  have card : (points.map ReadPoint.id).toFinset.card = points.length := by
    rw [List.toFinset_card_of_nodup once, List.length_map]
  constructor
  · intro all
    have whole : passing ⊆ (points.map ReadPoint.id).toFinset := by
      intro id member
      exact List.mem_toFinset.mpr (all id member)
    have more := Finset.card_le_card whole
    omega
  · intro fits id member
    have same : (points.map ReadPoint.id).toFinset = passing :=
      Finset.eq_of_subset_of_card_le within (by omega)
    rw [← same] at member
    exact List.mem_toFinset.mp member

end

section

attribute [local instance] QdrantPlatform.integral

def twoPoints : List Collection.Change :=
  [.upsert (.int 1) (integers [1]) (.object []),
    .upsert (.int 2) (integers [2]) (.object [])]

/-- A server with a collection of two points. -/
def twoPointState : QdrantState where
  collections := (∅ : HashMap Name Collection).insert ['a']
    (twoPoints.foldl Collection.perform (.new 1 .cosine none))
  files := ∅

theorem lookup_twoPointState :
    twoPointState.collections.lookup ['a'] =
      some (twoPoints.foldl Collection.perform (.new 1 .cosine none)) :=
  Finmap.lookup_insert _

theorem passing_twoPoints :
    ((twoPoints.foldl Collection.perform (.new 1 .cosine none)).passing
      (Filter.orDefault none)).card = 2 := by
  rfl

/-- A limit of two shows both points. -/
theorem scrollAll_both :
    ∃ page, scrollAll (Listing.any PointId) twoPointState ['a'] 1
        ⟨none, 2, none⟩ = .ok [page] ∧ page.points.length = 2 := by
  obtain ⟨page, scrolls, -, -, -, length, -⟩ :=
    scrollAll_once (Listing.any PointId) lookup_twoPointState none
      (by decide : 0 < 2) none 0
  refine ⟨page, scrolls, ?_⟩
  rw [length, passing_twoPoints]
  rfl

/-- A limit of one never shows the second point, however often one goes on. -/
theorem scrollAll_misses :
    ∃ points, (∀ rounds, scrollAll (Listing.any PointId) twoPointState ['a']
        (rounds + 1) ⟨none, 1, none⟩ =
          .ok [{ points := points, nextPageOffset := .null }]) ∧
      points.length = 1 ∧
      ((twoPoints.foldl Collection.perform (.new 1 .cosine none)).passing
        (Filter.orDefault none)).card = 2 := by
  obtain ⟨points, scrolls, -, length, -⟩ :=
    scrollAll_page (Listing.any PointId) lookup_twoPointState
      ⟨none, 1, none⟩
  rw [passing_twoPoints] at length
  exact ⟨points, scrolls, length, passing_twoPoints⟩

end

end RedVector.Qdrant
