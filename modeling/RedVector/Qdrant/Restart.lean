import RedVector.Effect.Runs
import RedVector.Qdrant.Api
import RedVector.Qdrant.Coherence

/-!
# Restarts

After a restart the collections are those of the data directory.  They are
what they were before, as long as the names are safe and every request is
persisted that changes a collection.
-/

namespace RedVector.Qdrant

open Effect Util VectorSearch

/-! ## File names -/

theorem splitExtension_file {name : Name} (nonempty : name ≠ []) :
    splitExtension (name ++ '.' :: json) = (name, some json) := by
  obtain ⟨last, front, backwards⟩ :=
    List.exists_cons_of_ne_nil (List.reverse_ne_nil_iff.mpr nonempty)
  have reversed : (name ++ '.' :: json).reverse =
      'n' :: 'o' :: 's' :: 'j' :: '.' :: last :: front := by
    rw [List.reverse_append, backwards]
    rfl
  have forwards : (last :: front).reverse = name := by
    rw [← backwards, List.reverse_reverse]
  simp only [splitExtension, reversed]
  simp [forwards, json]

theorem eq_of_splitExtension {fileName name extension : Name}
    (split : splitExtension fileName = (name, some extension)) :
    fileName = name ++ '.' :: extension := by
  unfold splitExtension at split
  split at split
  case h_2 => cases split
  case h_1 dot last front rest =>
    cases split
    have headed : dot = '.' := by
      have stops := List.head?_dropWhile_not (fun c : Char => c ≠ '.')
        fileName.reverse
      rw [rest] at stops
      simpa using stops
    have whole := List.takeWhile_append_dropWhile
      (p := fun c : Char => c ≠ '.') (l := fileName.reverse)
    rw [rest, headed] at whole
    have forwards := congrArg List.reverse whole
    rw [List.reverse_reverse] at forwards
    apply forwards.symm.trans
    simp

theorem collectionPath_safe {name : Name} (safe : sanitizeName name = name) :
    collectionPath name = name ++ '.' :: json := by
  rw [collectionPath, safe]

theorem collectionPath_injective {first second : Name}
    (firstSafe : sanitizeName first = first)
    (secondSafe : sanitizeName second = second)
    (same : collectionPath first = collectionPath second) : first = second := by
  rw [collectionPath_safe firstSafe, collectionPath_safe secondSafe] at same
  exact List.append_cancel_right same

variable [QdrantPlatform]

/-! ## One collection -/

/-- What has to survive of a collection. -/
def Collection.contents (collection : Collection) :
    Nat × VectorMetric × HashMap PointId StoredPoint :=
  (collection.dimension, collection.distance, collection.points)

theorem toPersisted_congr {first second : Collection}
    (same : first.contents = second.contents) (listing : Listing PointId) :
    first.toPersisted listing = second.toPersisted listing := by
  obtain ⟨dimension, distance, points⟩ :
      first.dimension = second.dimension ∧ first.distance = second.distance ∧
        first.points = second.points := by
    simpa [Collection.contents] using same
  rw [Collection.toPersisted, Collection.toPersisted, dimension, distance,
    points]

/-- Points of the right dimension are all upserted. -/
theorem contents_upsertAll {collection : Collection}
    (coherent : collection.Coherent) {points : List PersistedPoint}
    (fit : ∀ point ∈ points, point.vector.length = collection.dimension) :
    (collection.upsertAll points).contents =
      (collection.dimension, collection.distance,
        insertAll collection.points (points.map fun point =>
          (point.id, ⟨point.vector, point.payload⟩))) := by
  induction points generalizing collection with
  | nil => rfl
  | cons point rest ih =>
      obtain ⟨after, upserts, upserted⟩ := coherent.upsert_right point.id
        point.payload (fit point List.mem_cons_self)
      have fitRest : ∀ other ∈ rest,
          other.vector.length = after.dimension := by
        intro other member
        rw [upserted.dimension]
        exact fit other (List.mem_cons_of_mem point member)
      have later := ih upserted.coherent fitRest
      rw [upserted.dimension, upserted.distance, upserted.points] at later
      rw [Collection.upsertAll, List.foldl_cons, upserts]
      exact later

theorem fromPersisted_toPersisted {collection : Collection}
    (coherent : collection.Coherent) (listing : Listing PointId) :
    (Collection.fromPersisted (collection.toPersisted listing)).contents =
      collection.contents := by
  have fit : ∀ point ∈ (collection.toPersisted listing).points,
      point.vector.length = collection.dimension := by
    intro point member
    obtain ⟨⟨id, stored⟩, listed, same⟩ := List.mem_map.mp member
    cases same
    have found := (Listing.mem_entries listing _ id stored).mp listed
    exact coherent.sized id stored found
  have entries : (collection.toPersisted listing).points.map (fun point =>
      (point.id, (⟨point.vector, point.payload⟩ : StoredPoint))) =
      listing.entries collection.points := by
    rw [Collection.toPersisted, List.map_map]
    exact List.map_id _
  have distance : parseDistance (collection.toPersisted listing).distance =
      collection.distance := parseDistance_distanceName collection.distance
  have upserted := contents_upsertAll (Collection.coherent_new
    collection.dimension (parseDistance
      (collection.toPersisted listing).distance) none) fit
  rw [entries] at upserted
  rw [Collection.fromPersisted]
  apply upserted.trans
  have points : insertAll ∅ (listing.entries collection.points) =
      collection.points := Listing.insertAll_entries listing _
  simp only [Collection.new, Collection.contents, points, distance]

/-- All vectors of a collection are written as they are. -/
def AllFinite (collection : Collection) : Prop :=
  ∀ id stored, collection.points.lookup id = some stored →
    Finite stored.vector

theorem ofJson_toPersisted {collection : Collection}
    (finite : AllFinite collection) (listing : Listing PointId) :
    PersistedCollection.ofJson (collection.toPersisted listing).toJson =
      some (collection.toPersisted listing) := by
  apply PersistedCollection.ofJson_toJson
  intro point member
  obtain ⟨⟨id, stored⟩, listed, same⟩ := List.mem_map.mp member
  cases same
  exact finite id stored ((Listing.mem_entries listing _ id stored).mp listed)

/-! ## Memory and disk -/

/-- Every collection has a file of its own, which shows it, and there are no
other files. -/
structure Mirrored (state : QdrantState) : Prop where
  safe : ∀ name collection, state.collections.lookup name = some collection →
    name ≠ [] ∧ sanitizeName name = name
  coherent : ∀ name collection,
    state.collections.lookup name = some collection → collection.Coherent
  finite : ∀ name collection,
    state.collections.lookup name = some collection → AllFinite collection
  kept : ∀ name collection, state.collections.lookup name = some collection →
    ∃ listing, state.files.lookup (collectionPath name) =
      some (collection.toPersisted listing).toJson
  files : ∀ fileName contents, state.files.lookup fileName = some contents →
    ∃ name collection, state.collections.lookup name = some collection ∧
      fileName = collectionPath name

variable {state : QdrantState}

/-- The name of a loaded collection is that of its file. -/
theorem loadCollection_path {fileName name : Name} {contents : Json}
    {loaded : Collection}
    (loads : loadCollection (fileName, contents) = some (name, loaded)) :
    fileName = name ++ '.' :: json := by
  unfold loadCollection at loads
  split at loads
  · rename_i stem extension split
    split at loads
    · rename_i isJson
      obtain ⟨persisted, _, same⟩ := Option.map_eq_some_iff.mp loads
      cases same
      rw [← isJson]
      exact eq_of_splitExtension split
    · cases loads
  · cases loads

theorem loadCollection_written {name : Name} {collection : Collection}
    (nonempty : name ≠ []) (safe : sanitizeName name = name)
    (finite : AllFinite collection) (listing : Listing PointId) :
    loadCollection (collectionPath name,
        (collection.toPersisted listing).toJson) =
      some (name,
        Collection.fromPersisted (collection.toPersisted listing)) := by
  rw [loadCollection, collectionPath_safe safe, splitExtension_file nonempty]
  simp only [if_true, ofJson_toPersisted finite, Option.map_some]

/-- What is loaded under a name is what the collection of the name was written
as. -/
theorem Mirrored.loaded (mirrored : Mirrored state) {listing : Listing Name}
    {name : Name} {loaded : Collection}
    (member : (name, loaded) ∈
      (listing.entries state.files).filterMap loadCollection) :
    ∃ collection order, state.collections.lookup name = some collection ∧
      state.files.lookup (collectionPath name) =
        some (collection.toPersisted order).toJson ∧
      loaded = Collection.fromPersisted (collection.toPersisted order) := by
  obtain ⟨⟨fileName, contents⟩, listed, loads⟩ := List.mem_filterMap.mp member
  have file := (Listing.mem_entries listing _ _ _).mp listed
  obtain ⟨original, collection, found, path⟩ :=
    mirrored.files fileName contents file
  obtain ⟨nonempty, safe⟩ := mirrored.safe original collection found
  obtain ⟨order, written⟩ := mirrored.kept original collection found
  have same : original = name := by
    have named := loadCollection_path loads
    rw [path, collectionPath_safe safe] at named
    exact List.append_cancel_right named
  subst same path
  cases file.symm.trans written
  rw [loadCollection_written nonempty safe
    (mirrored.finite original collection found)] at loads
  cases loads
  exact ⟨collection, order, found, written, rfl⟩

/-- Loading the directory gives the collections back. -/
theorem Mirrored.reloads (mirrored : Mirrored state) (listing : Listing Name)
    (name : Name) :
    ((loadAllCollections listing state.files).lookup name).map
      Collection.contents =
      (state.collections.lookup name).map Collection.contents := by
  cases found : state.collections.lookup name with
  | some collection =>
      obtain ⟨nonempty, safe⟩ := mirrored.safe name collection found
      obtain ⟨order, written⟩ := mirrored.kept name collection found
      have finite := mirrored.finite name collection found
      have inserted : (name,
          Collection.fromPersisted (collection.toPersisted order)) ∈
          (listing.entries state.files).filterMap loadCollection := by
        apply List.mem_filterMap.mpr
        refine ⟨_, (Listing.mem_entries listing _ _ _).mpr written, ?_⟩
        exact loadCollection_written nonempty safe finite order
      have only : ∀ other, (name, other) ∈
          (listing.entries state.files).filterMap loadCollection →
          other = Collection.fromPersisted (collection.toPersisted order) := by
        intro other member
        obtain ⟨again, another, same, file, rfl⟩ := mirrored.loaded member
        have read := ofJson_toPersisted
          (mirrored.finite name again same) another
        rw [← Option.some_inj.mp (written.symm.trans file),
          ofJson_toPersisted finite] at read
        rw [Option.some_inj.mp read]
      rw [loadAllCollections, lookup_insertAll_unique inserted only]
      exact congrArg some (fromPersisted_toPersisted
        (mirrored.coherent name collection found) order)
  | none =>
      cases loads : (loadAllCollections listing state.files).lookup name with
      | none => rfl
      | some loaded =>
          rcases mem_of_lookup_insertAll loads with member | impossible
          · obtain ⟨collection, _, same, _⟩ := mirrored.loaded member
            cases found.symm.trans same
          · cases impossible

/-! ## Steps -/

theorem mirrored_empty : Mirrored ⟨∅, ∅⟩ where
  safe := fun _ _ impossible => nomatch impossible
  coherent := fun _ _ impossible => nomatch impossible
  finite := fun _ _ impossible => nomatch impossible
  kept := fun _ _ impossible => nomatch impossible
  files := fun _ _ impossible => nomatch impossible

/-- A collection that is persisted replaces the one under its name. -/
theorem Mirrored.persist (mirrored : Mirrored state) {name : Name}
    {collection : Collection} (nonempty : name ≠ [])
    (safe : sanitizeName name = name) (coherent : collection.Coherent)
    (finite : AllFinite collection) (listing : Listing PointId) :
    Mirrored
      { collections := state.collections.insert name collection
        files := persistCollection listing state.files name collection } := by
  refine ⟨?_, ?_, ?_, ?_, ?_⟩
  · intro other held found
    rw [lookup_insert] at found
    split at found
    · rename_i same
      rw [same]
      exact ⟨nonempty, safe⟩
    · exact mirrored.safe other held found
  · intro other held found
    rw [lookup_insert] at found
    split at found
    · cases found
      exact coherent
    · exact mirrored.coherent other held found
  · intro other held found
    rw [lookup_insert] at found
    split at found
    · cases found
      exact finite
    · exact mirrored.finite other held found
  · intro other held found
    rw [lookup_insert] at found
    split at found
    · rename_i same
      cases found
      rw [same]
      exact ⟨listing, Finmap.lookup_insert _⟩
    · rename_i different
      obtain ⟨order, written⟩ := mirrored.kept other held found
      refine ⟨order, ?_⟩
      rw [persistCollection, Finmap.lookup_insert_of_ne]
      · exact written
      · intro paths
        exact different (collectionPath_injective
          (mirrored.safe other held found).2 safe paths)
  · intro fileName contents file
    rw [persistCollection, lookup_insert] at file
    split at file
    · rename_i same
      exact ⟨name, collection, Finmap.lookup_insert _, same⟩
    · rename_i different
      obtain ⟨other, held, found, path⟩ :=
        mirrored.files fileName contents file
      refine ⟨other, held, ?_, path⟩
      rw [Finmap.lookup_insert_of_ne]
      · exact found
      · intro same
        rw [path, same] at different
        exact different rfl

theorem Mirrored.remove (mirrored : Mirrored state) {name : Name}
    (safe : sanitizeName name = name) :
    Mirrored
      { collections := state.collections.erase name
        files := removeCollectionFile state.files name } := by
  have others : ∀ other held,
      (state.collections.erase name).lookup other = some held →
        other ≠ name ∧ state.collections.lookup other = some held := by
    intro other held found
    by_cases same : other = name
    · rw [same, Finmap.lookup_erase] at found
      cases found
    · rw [Finmap.lookup_erase_ne same] at found
      exact ⟨same, found⟩
  refine ⟨?_, ?_, ?_, ?_, ?_⟩
  · intro other held found
    exact mirrored.safe other held (others other held found).2
  · intro other held found
    exact mirrored.coherent other held (others other held found).2
  · intro other held found
    exact mirrored.finite other held (others other held found).2
  · intro other held found
    obtain ⟨different, found⟩ := others other held found
    obtain ⟨order, written⟩ := mirrored.kept other held found
    refine ⟨order, ?_⟩
    rw [removeCollectionFile, Finmap.lookup_erase_ne]
    · exact written
    · intro paths
      exact different (collectionPath_injective
        (mirrored.safe other held found).2 safe paths)
  · intro fileName contents file
    rw [removeCollectionFile] at file
    by_cases same : fileName = collectionPath name
    · rw [same, Finmap.lookup_erase] at file
      cases file
    · rw [Finmap.lookup_erase_ne same] at file
      obtain ⟨other, held, found, path⟩ :=
        mirrored.files fileName contents file
      refine ⟨other, held, ?_, path⟩
      rw [Finmap.lookup_erase_ne]
      · exact found
      · intro names
        rw [path, names] at same
        exact same rfl

end RedVector.Qdrant
