import RedVector.Qdrant.Coherence

/-!
# What was ever inserted

A collection that comes about by changes has the vectors of all its upserts in
its graph, numbered in their order.  The numbers in use are those of the
current vectors of the points.
-/

namespace RedVector.Qdrant

open Effect VectorSearch

variable [QdrantPlatform]

/-- The point and the vector of a change that inserts. -/
def inserts (dimension : Nat) : Collection.Change →
    Option (PointId × Vector32)
  | .upsert id vector _ =>
      if vector.length = dimension then some (id, vector) else none
  | .deleteById _ => none

/-- What the changes have inserted, in order. -/
def inserted (dimension : Nat) (changes : List Collection.Change) :
    List (PointId × Vector32) :=
  changes.filterMap (inserts dimension)

/-- The vectors with their numbers. -/
def numbered (history : List (PointId × Vector32)) : List (Vector32 × Nat) :=
  history.zipIdx.map fun entry => (entry.1.2, entry.2)

theorem numbered_concat (history : List (PointId × Vector32)) (id : PointId)
    (vector : Vector32) :
    numbered (history ++ [(id, vector)]) =
      numbered history ++ [(vector, history.length)] := by
  simp [numbered, List.zipIdx_append]

theorem mem_numbered {history : List (PointId × Vector32)} {vector : Vector32}
    {uid : Nat} :
    (vector, uid) ∈ numbered history ↔
      ∃ id, history[uid]? = some (id, vector) := by
  unfold numbered
  rw [List.mem_map]
  constructor
  · rintro ⟨⟨⟨id, known⟩, place⟩, member, same⟩
    cases same
    exact ⟨id, List.mem_zipIdx_iff_getElem?.mp member⟩
  · rintro ⟨id, found⟩
    exact ⟨((id, vector), uid), List.mem_zipIdx_iff_getElem?.mpr found, rfl⟩

theorem numbered_nodup (history : List (PointId × Vector32)) :
    ((numbered history).map Prod.snd).Nodup := by
  have numbers : (numbered history).map Prod.snd =
      List.range' 0 history.length := by
    rw [numbered, List.map_map]
    exact List.zipIdx_map_snd 0 history
  rw [numbers]
  exact List.nodup_range'

namespace Collection

/-- The collection has this history. -/
structure Recorded (collection : Collection) (dimension m : Nat)
    (history : List (PointId × Vector32)) : Prop where
  coherent : collection.Coherent
  dimension : collection.dimension = dimension
  graph : collection.index.index = hnswOf m 1000000 16 200 (numbered history)
  nextUid : collection.nextUid = history.length
  nextId : collection.index.nextId = history.length
  same : ∀ internalId uid,
    collection.index.idToDoc.lookup internalId = some uid → uid = internalId
  current : ∀ uid id, collection.uidToId.lookup uid = some id →
    ∃ stored, collection.points.lookup id = some stored ∧
      history[uid]? = some (id, stored.vector)

variable {collection : Collection} {dimension m : Nat}
  {history : List (PointId × Vector32)}

theorem recorded_new (dimension : Nat) (distance : VectorMetric)
    (m : Option Nat) :
    (new dimension distance m).Recorded dimension (m.getD 16) [] where
  coherent := coherent_new dimension distance m
  dimension := rfl
  graph := rfl
  nextUid := rfl
  nextId := rfl
  same := by
    intro internalId uid found
    cases found
  current := by
    intro uid id found
    cases found

/-- What a removal leaves of the index. -/
structure Fewer (before after : HnswVectorIndex) : Prop where
  index : after.index = before.index
  nextId : after.nextId = before.nextId
  names : ∀ internalId uid, after.idToDoc.lookup internalId = some uid →
    before.idToDoc.lookup internalId = some uid

theorem fewer_refl (index : HnswVectorIndex) : Fewer index index :=
  ⟨rfl, rfl, fun _ _ found => found⟩

theorem fewer_removed (index : HnswVectorIndex) (uid : Nat) :
    Fewer index (index.removed uid) := by
  cases known : index.docIdMap.lookup uid with
  | none =>
      rw [HnswVectorIndex.removed_none known]
      exact fewer_refl index
  | some internalId =>
      rw [HnswVectorIndex.removed_some known]
      refine ⟨rfl, rfl, ?_⟩
      intro other held found
      by_cases same : other = internalId
      · rw [same, Finmap.lookup_erase] at found
        cases found
      · rwa [Finmap.lookup_erase_ne same] at found

theorem fewer_detach (collection : Collection) (id : PointId) :
    Fewer collection.index (collection.detach id).index := by
  unfold detach
  split
  · exact fewer_removed collection.index _
  · exact fewer_refl collection.index

theorem Recorded.upsert (recorded : collection.Recorded dimension m history)
    (id : PointId) (vector : Vector32) (payload : Json)
    (fits : vector.length = dimension) :
    (collection.upsert id vector payload).2.Recorded dimension m
      (history ++ [(id, vector)]) := by
  have right : vector.length = collection.dimension :=
    fits.trans recorded.dimension.symm
  obtain ⟨after, upserts, upserted⟩ :=
    recorded.coherent.upsert_right id payload right
  obtain ⟨index, added, takes⟩ :=
    recorded.coherent.upsert_takes id payload right
  have fewer := fewer_detach collection id
  obtain ⟨-, -, grown⟩ := HnswVectorIndex.add_ok added
  have coherent := upserted.coherent
  have uids := (recorded.coherent.detach id).uids
  have nextId := fewer.nextId.trans recorded.nextId
  rw [upserts] at takes
  obtain ⟨-, shape⟩ := Prod.mk.inj takes
  rw [upserts]
  refine
    { coherent := coherent
      dimension := upserted.dimension.trans recorded.dimension
      graph := ?_
      nextUid := ?_
      nextId := ?_
      same := ?_
      current := ?_ }
  · rw [numbered_concat, shape, grown]
    dsimp only
    rw [fewer.index, recorded.graph, nextId, hnswOf, hnswOf, List.foldl_append]
    rfl
  · rw [upserted.nextUid, recorded.nextUid, List.length_append]
    rfl
  · rw [shape, grown, List.length_append]
    dsimp only
    rw [nextId]
    rfl
  · intro internalId uid found
    rw [shape, grown] at found
    dsimp only at found
    rw [lookup_insert] at found
    split at found
    · rename_i newest
      cases found
      rw [newest, nextId, recorded.nextUid]
    · exact recorded.same _ _ (fewer.names _ _ found)
  · intro uid other found
    have back := (coherent.inverses other uid).mpr found
    rw [shape] at back
    dsimp only at back
    rw [lookup_insert] at back
    rw [upserted.points]
    split at back
    · rename_i sameId
      cases back
      subst sameId
      refine ⟨_, Finmap.lookup_insert _, ?_⟩
      rw [recorded.nextUid]
      exact List.getElem?_concat_length
    · rename_i different
      obtain ⟨stored, held, placed⟩ := recorded.current uid other
        ((recorded.coherent.inverses other uid).mp back)
      refine ⟨stored, ?_, ?_⟩
      · rw [Finmap.lookup_insert_of_ne _ different]
        exact held
      · obtain ⟨inside, -⟩ := List.getElem?_eq_some_iff.mp placed
        rw [List.getElem?_append_left inside]
        exact placed

theorem fewer_deleteById (collection : Collection) (id : PointId) :
    Fewer collection.index (collection.deleteById id).index := by
  unfold deleteById
  dsimp only
  split
  · exact fewer_removed collection.index _
  · exact fewer_refl collection.index

theorem Recorded.deleteById
    (recorded : collection.Recorded dimension m history) (id : PointId) :
    (collection.deleteById id).Recorded dimension m history := by
  have deleted := recorded.coherent.deleteById id
  have fewer := fewer_deleteById collection id
  refine
    { coherent := deleted.coherent
      dimension := deleted.dimension.trans recorded.dimension
      graph := fewer.index.trans recorded.graph
      nextUid := deleted.nextUid.trans recorded.nextUid
      nextId := fewer.nextId.trans recorded.nextId
      same := ?_
      current := ?_ }
  · intro internalId uid found
    exact recorded.same _ _ (fewer.names _ _ found)
  · intro uid other found
    have kept : other ∈ (collection.deleteById id).points := by
      rw [← deleted.coherent.keys, Finmap.mem_iff]
      exact ⟨uid, (deleted.coherent.inverses other uid).mpr found⟩
    rw [deleted.points, Finmap.mem_erase] at kept
    obtain ⟨stored, held, placed⟩ :=
      recorded.current uid other (deleted.uids uid other found)
    refine ⟨stored, ?_, placed⟩
    rw [deleted.points, Finmap.lookup_erase_ne kept.1]
    exact held

theorem Recorded.perform
    (recorded : collection.Recorded dimension m history) (change : Change) :
    (collection.perform change).Recorded dimension m
      (history ++ (inserts dimension change).toList) := by
  cases change with
  | upsert id vector payload =>
      rw [Collection.perform, inserts]
      by_cases fits : vector.length = dimension
      · rw [if_pos fits]
        exact recorded.upsert id vector payload fits
      · have wrong : vector.length ≠ collection.dimension := by
          rwa [recorded.dimension]
        rw [if_neg fits, upsert_wrong wrong, Option.toList_none,
          List.append_nil]
        exact recorded
  | deleteById id =>
      rw [Collection.perform, inserts, Option.toList_none, List.append_nil]
      exact recorded.deleteById id

theorem Recorded.performAll
    (recorded : collection.Recorded dimension m history)
    (changes : List Change) :
    (changes.foldl Collection.perform collection).Recorded dimension m
      (history ++ inserted dimension changes) := by
  induction changes generalizing collection history with
  | nil =>
      rw [inserted, List.filterMap_nil, List.append_nil]
      exact recorded
  | cons change rest ih =>
      have later := ih (recorded.perform change)
      rw [List.append_assoc] at later
      rw [inserted, List.filterMap_cons]
      cases first : inserts dimension change with
      | none =>
          rw [first] at later
          exact later
      | some entry =>
          rw [first] at later
          exact later

/-- A collection records what its changes have inserted. -/
theorem recorded_performAll (dimension : Nat) (distance : VectorMetric)
    (m : Option Nat) (changes : List Change) :
    (changes.foldl Collection.perform (new dimension distance m)).Recorded
      dimension (m.getD 16) (inserted dimension changes) :=
  (recorded_new dimension distance m).performAll changes

end Collection

end RedVector.Qdrant
