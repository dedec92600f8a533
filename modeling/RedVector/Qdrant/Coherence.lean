import RedVector.Qdrant.Collection

/-!
# Coherence of a collection

The maps of a collection and its index agree on the points, and a number
stands for one point ever.
-/

namespace RedVector.Qdrant

open Effect Util VectorSearch

variable [QdrantPlatform]

namespace Collection

/-- The maps and the index agree on the points. -/
structure Coherent (collection : Collection) : Prop where
  inverses : Inverses collection.idToUid collection.uidToId
  keys : ∀ id, id ∈ collection.idToUid ↔ id ∈ collection.points
  below : ∀ uid id, collection.uidToId.lookup uid = some id →
    uid < collection.nextUid
  bookkept : collection.index.Bookkept
  live : ∀ uid, collection.index.Live uid ↔ uid ∈ collection.uidToId
  indexed : collection.index.dimension = collection.dimension
  sized : ∀ id stored, collection.points.lookup id = some stored →
    stored.vector.length = collection.dimension

variable {collection after : Collection} {id : PointId} {vector : Vector32}
  {payload : Json}

theorem Coherent.documents (coherent : collection.Coherent) (uid : Nat) :
    uid ∈ collection.index.docIdMap ↔ uid ∈ collection.uidToId := by
  rw [← coherent.bookkept.live_iff, coherent.live]

theorem coherent_new (dimension : Nat) (distance : VectorMetric)
    (m : Option Nat) : (new dimension distance m).Coherent where
  inverses := Inverses.empty
  keys := fun _ => Iff.rfl
  below := by
    intro uid id found
    cases found
  bookkept := HnswVectorIndex.bookkept_new _ distance _ _
  live := by
    intro uid
    exact (HnswVectorIndex.bookkept_new _ distance _ _).live_iff uid
  indexed := rfl
  sized := by
    intro id stored found
    cases found

theorem Coherent.newUid (coherent : collection.Coherent) :
    collection.uidToId.lookup collection.nextUid = none := by
  cases found : collection.uidToId.lookup collection.nextUid with
  | none => rfl
  | some id => exact absurd (coherent.below _ _ found) (Nat.lt_irrefl _)

/-- The index and the numbers without the mapping of a point, which gets the
next number then. -/
structure Detached (before after : Collection) (id : PointId) : Prop where
  inverses : Inverses (before.idToUid.insert id before.nextUid)
    (after.uidToId.insert before.nextUid id)
  bookkept : after.index.Bookkept
  documents : ∀ uid, uid ∈ after.index.docIdMap ↔ uid ∈ after.uidToId
  indexed : after.index.dimension = before.dimension
  uids : ∀ uid other, after.uidToId.lookup uid = some other →
    before.uidToId.lookup uid = some other
  same : after = { before with
    index := after.index
    uidToId := after.uidToId }

theorem Coherent.detach (coherent : collection.Coherent) (id : PointId) :
    Detached collection (collection.detach id) id := by
  unfold Collection.detach
  cases old : collection.idToUid.lookup id with
  | none =>
      exact
        { inverses := coherent.inverses.insert old coherent.newUid
          bookkept := coherent.bookkept
          documents := coherent.documents
          indexed := coherent.indexed
          uids := fun _ _ found => found
          same := rfl }
  | some oldUid =>
      refine
        { inverses := coherent.inverses.replace old coherent.newUid
          bookkept := coherent.bookkept.removed oldUid
          documents := ?_
          indexed := ?_
          uids := ?_
          same := rfl }
      · intro uid
        rw [HnswVectorIndex.removed_docIdMap, Finmap.mem_erase,
          Finmap.mem_erase, coherent.documents]
      · rw [HnswVectorIndex.removed_dimension, coherent.indexed]
      · intro uid other found
        by_cases same : uid = oldUid
        · rw [same, Finmap.lookup_erase] at found
          cases found
        · rwa [Finmap.lookup_erase_ne same] at found

/-- What an upsert of the right dimension leaves. -/
structure Upserted (before after : Collection) (id : PointId)
    (vector : Vector32) (payload : Json) : Prop where
  coherent : after.Coherent
  dimension : after.dimension = before.dimension
  distance : after.distance = before.distance
  points : after.points = before.points.insert id ⟨vector, payload⟩
  nextUid : after.nextUid = before.nextUid + 1
  uids : ∀ uid other, after.uidToId.lookup uid = some other →
    before.uidToId.lookup uid = some other ∨ uid = before.nextUid

theorem upsert_wrong (wrong : vector.length ≠ collection.dimension) :
    collection.upsert id vector payload =
      (.error (wrongDimension collection.dimension vector.length),
        collection) := by
  rw [upsert, if_pos wrong]

/-- The number of a point is new, so that the index takes its vector. -/
theorem Coherent.upsert_takes (coherent : collection.Coherent)
    (id : PointId) (payload : Json)
    (fits : vector.length = collection.dimension) :
    ∃ index, (collection.detach id).index.add collection.nextUid vector =
        .ok index ∧
      collection.upsert id vector payload = (.ok (), { collection with
        index := index
        nextUid := collection.nextUid + 1
        idToUid := collection.idToUid.insert id collection.nextUid
        uidToId := (collection.detach id).uidToId.insert collection.nextUid id
        points := collection.points.insert id ⟨vector, payload⟩ }) := by
  have detached := coherent.detach id
  rw [upsert, if_neg (not_not.mpr fits)]
  generalize collection.detach id = middle at detached
  have newDocument : collection.nextUid ∉ middle.index.docIdMap := by
    rw [detached.documents, Finmap.mem_iff]
    rintro ⟨other, found⟩
    have known := detached.uids _ _ found
    rw [coherent.newUid] at known
    cases known
  obtain ⟨index, added⟩ := HnswVectorIndex.add_succeeds
    (fits.trans detached.indexed.symm) newDocument
  refine ⟨index, added, ?_⟩
  rw [detached.same]
  simp only [assign, added]

theorem Coherent.upsert_right (coherent : collection.Coherent)
    (id : PointId) (payload : Json)
    (fits : vector.length = collection.dimension) :
    ∃ after, collection.upsert id vector payload = (.ok (), after) ∧
      Upserted collection after id vector payload := by
  have detached := coherent.detach id
  obtain ⟨index, added, upserts⟩ := coherent.upsert_takes id payload fits
  rw [upserts]
  generalize collection.detach id = middle at detached added
  have bookkept := detached.bookkept.add added
  obtain ⟨_, _, grown⟩ := HnswVectorIndex.add_ok added
  refine ⟨_, rfl, ⟨?_, rfl, rfl, rfl, rfl, ?_⟩⟩
  · refine
      { inverses := detached.inverses
        keys := ?_
        below := ?_
        bookkept := bookkept
        live := ?_
        indexed := ?_
        sized := ?_ }
    · intro other
      rw [Finmap.mem_insert, Finmap.mem_insert, coherent.keys]
    · intro uid other found
      rw [lookup_insert] at found
      split at found
      · rename_i newest
        rw [newest]
        exact Nat.lt_succ_self _
      · exact Nat.lt_succ_of_lt (coherent.below _ _ (detached.uids _ _ found))
    · intro uid
      rw [bookkept.live_iff, grown, Finmap.mem_insert, Finmap.mem_insert,
        detached.documents]
    · rw [grown]
      exact detached.indexed
    · intro other stored found
      rw [lookup_insert] at found
      split at found
      · cases found
        exact fits
      · exact coherent.sized other stored found
  · intro uid other found
    rw [lookup_insert] at found
    split at found
    · rename_i newest
      exact .inr newest
    · exact .inl (detached.uids _ _ found)

/-! ## Deletions -/

/-- What a deletion leaves. -/
structure Deleted (before after : Collection) (id : PointId) : Prop where
  coherent : after.Coherent
  dimension : after.dimension = before.dimension
  distance : after.distance = before.distance
  points : after.points = before.points.erase id
  nextUid : after.nextUid = before.nextUid
  uids : ∀ uid other, after.uidToId.lookup uid = some other →
    before.uidToId.lookup uid = some other

theorem Coherent.deleteById (coherent : collection.Coherent) (id : PointId) :
    Deleted collection (collection.deleteById id) id := by
  unfold Collection.deleteById
  cases mapped : collection.idToUid.lookup id with
  | none =>
      have absent : id ∉ collection.points := by
        rw [← coherent.keys]
        exact Finmap.lookup_eq_none.mp mapped
      have kept : collection.points.erase id = collection.points := by
        apply Finmap.ext_lookup
        intro other
        by_cases same : other = id
        · rw [same, Finmap.lookup_erase, Finmap.lookup_eq_none.mpr absent]
        · rw [Finmap.lookup_erase_ne same]
      refine ⟨?_, rfl, rfl, rfl, rfl, fun _ _ found => found⟩
      simp only [kept]
      exact coherent
  | some uid =>
      have bookkept := coherent.bookkept.removed uid
      refine ⟨?_, rfl, rfl, rfl, rfl, ?_⟩
      · refine
          { inverses := coherent.inverses.erase mapped
            keys := ?_
            below := ?_
            bookkept := bookkept
            live := ?_
            indexed := ?_
            sized := ?_ }
        · intro other
          rw [Finmap.mem_erase, Finmap.mem_erase, coherent.keys]
        · intro other held found
          by_cases same : other = uid
          · rw [same, Finmap.lookup_erase] at found
            cases found
          · rw [Finmap.lookup_erase_ne same] at found
            exact coherent.below other held found
        · intro other
          rw [bookkept.live_iff, HnswVectorIndex.removed_docIdMap,
            Finmap.mem_erase, Finmap.mem_erase, coherent.documents]
        · rw [HnswVectorIndex.removed_dimension, coherent.indexed]
        · intro other stored found
          by_cases same : other = id
          · rw [same, Finmap.lookup_erase] at found
            cases found
          · rw [Finmap.lookup_erase_ne same] at found
            exact coherent.sized other stored found
      · intro other held found
        by_cases same : other = uid
        · rw [same, Finmap.lookup_erase] at found
          cases found
        · rwa [Finmap.lookup_erase_ne same] at found

/-! ## Runs -/

/-- A change of a collection. -/
inductive Change where
  | upsert (id : PointId) (vector : Vector32) (payload : Json)
  | deleteById (id : PointId)

/-- A change, or a collection from a file in place of the one that was. -/
inductive Event where
  | change (change : Change)
  | fromPersisted (persisted : PersistedCollection)

/-- The collection after a change, whatever it answers. -/
def perform (collection : Collection) : Change → Collection
  | .upsert id vector payload => (collection.upsert id vector payload).2
  | .deleteById id => collection.deleteById id

def handle (collection : Collection) : Event → Collection
  | .change change => collection.perform change
  | .fromPersisted persisted => fromPersisted persisted

/-- The numbers that were given out are not given out again. -/
structure Advances (before after : Collection) : Prop where
  nextUid : before.nextUid ≤ after.nextUid
  uids : ∀ uid id, uid < before.nextUid →
    after.uidToId.lookup uid = some id → before.uidToId.lookup uid = some id

theorem Advances.refl (collection : Collection) :
    Advances collection collection where
  nextUid := Nat.le_refl _
  uids := fun _ _ _ found => found

theorem Advances.trans {first second third : Collection}
    (left : Advances first second) (right : Advances second third) :
    Advances first third where
  nextUid := left.nextUid.trans right.nextUid
  uids := by
    intro uid id below found
    apply left.uids uid id below
    exact right.uids uid id (below.trans_le left.nextUid) found

theorem Coherent.perform (coherent : collection.Coherent) (change : Change) :
    (collection.perform change).Coherent ∧
      Advances collection (collection.perform change) := by
  cases change with
  | upsert id vector payload =>
      rw [Collection.perform]
      by_cases fits : vector.length = collection.dimension
      · obtain ⟨after, upserts, upserted⟩ :=
          coherent.upsert_right id payload fits
        rw [upserts]
        refine ⟨upserted.coherent, ⟨?_, ?_⟩⟩
        · rw [upserted.nextUid]
          exact Nat.le_succ _
        · intro uid other below found
          rcases upserted.uids uid other found with known | newest
          · exact known
          · exact absurd newest (Nat.ne_of_lt below)
      · rw [upsert_wrong fits]
        exact ⟨coherent, Advances.refl collection⟩
  | deleteById id =>
      have deleted := coherent.deleteById id
      refine ⟨deleted.coherent, ⟨?_, ?_⟩⟩
      · exact Nat.le_of_eq deleted.nextUid.symm
      · intro uid other _ found
        exact deleted.uids uid other found

theorem Coherent.performAll (coherent : collection.Coherent)
    (changes : List Change) :
    (changes.foldl Collection.perform collection).Coherent ∧
      Advances collection (changes.foldl Collection.perform collection) := by
  induction changes generalizing collection with
  | nil => exact ⟨coherent, Advances.refl collection⟩
  | cons change rest ih =>
      obtain ⟨still, advanced⟩ := coherent.perform change
      obtain ⟨ends, further⟩ := ih still
      exact ⟨ends, advanced.trans further⟩

/-- A collection from a file comes about by upserts as well. -/
theorem upsertAll_perform (points : List PersistedPoint) :
    collection.upsertAll points =
      (points.map fun point =>
        Change.upsert point.id point.vector point.payload).foldl
          Collection.perform collection := by
  rw [upsertAll, List.foldl_map]
  rfl

theorem coherent_fromPersisted (persisted : PersistedCollection) :
    (fromPersisted persisted).Coherent := by
  rw [fromPersisted, upsertAll_perform]
  exact ((coherent_new _ _ _).performAll _).1

theorem coherent_handleAll {events : List Event}
    (coherent : collection.Coherent) :
    (events.foldl handle collection).Coherent := by
  induction events generalizing collection with
  | nil => exact coherent
  | cons event rest ih =>
      apply ih
      cases event with
      | change change => exact (coherent.perform change).1
      | fromPersisted persisted => exact coherent_fromPersisted persisted

/-- After any events and then any changes the collection is coherent, a number
has not been used for another id before, and an upsert that fails changes
nothing. -/
theorem coherent_always (dimension : Nat) (distance : VectorMetric)
    (m : Option Nat) (events : List Event) (changes : List Change) :
    let middle := events.foldl handle (new dimension distance m)
    let final := changes.foldl Collection.perform middle
    final.Coherent ∧
      (∀ uid id other, middle.uidToId.lookup uid = some id →
        final.uidToId.lookup uid = some other → other = id) ∧
      ∀ id vector payload error after,
        final.upsert id vector payload = (.error error, after) →
          after = final := by
  intro middle final
  have begins : middle.Coherent :=
    coherent_handleAll (coherent_new dimension distance m)
  obtain ⟨ends, advances⟩ := begins.performAll changes
  refine ⟨ends, ?_, ?_⟩
  · intro uid id other before now
    have known := advances.uids uid other (begins.below uid id before) now
    cases known.symm.trans before
    rfl
  · intro id vector payload error after fails
    by_cases fits : vector.length = final.dimension
    · obtain ⟨_, upserts, _⟩ :=
        ends.upsert_right id payload fits
      cases fails.symm.trans upserts
    · rw [upsert_wrong fits] at fails
      cases fails
      rfl

end Collection

end RedVector.Qdrant
