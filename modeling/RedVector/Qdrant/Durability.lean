import RedVector.Qdrant.Restart

/-!
# Histories of requests

Requests and restarts in any order.  Memory and disk correspond as long as the
requests name what the file names can tell apart, an upsert that fails fails
at its first point, and the vectors that stay are finite.
-/

namespace RedVector.Qdrant

open Effect Util VectorSearch

section

variable [QdrantPlatform] {state : QdrantState}

/-! ## Restarts -/

/-- After a restart memory and disk correspond as before. -/
theorem Mirrored.restart (mirrored : Mirrored state) (listing : Listing Name) :
    Mirrored (.withDataDir listing state.files) := by
  have before : ∀ name loaded,
      (loadAllCollections listing state.files).lookup name = some loaded →
      ∃ collection, state.collections.lookup name = some collection ∧
        loaded.Coherent ∧ loaded.contents = collection.contents := by
    intro name loaded found
    have reloads := mirrored.reloads listing name
    rw [found] at reloads
    obtain ⟨collection, was, same⟩ :=
      Option.map_eq_some_iff.mp reloads.symm
    rcases mem_of_lookup_insertAll found with member | impossible
    · obtain ⟨_, _, _, _, built⟩ := mirrored.loaded member
      refine ⟨collection, was, ?_, same.symm⟩
      rw [built]
      exact Collection.coherent_fromPersisted _
    · cases impossible
  refine ⟨?_, ?_, ?_, ?_, ?_⟩
  · intro name loaded found
    obtain ⟨collection, was, _⟩ := before name loaded found
    exact mirrored.safe name collection was
  · intro name loaded found
    obtain ⟨_, _, coherent, _⟩ := before name loaded found
    exact coherent
  · intro name loaded found id stored held
    obtain ⟨collection, was, _, same⟩ := before name loaded found
    have points : loaded.points = collection.points :=
      congrArg (fun contents => contents.2.2) same
    rw [points] at held
    exact mirrored.finite name collection was id stored held
  · intro name loaded found
    obtain ⟨collection, was, _, same⟩ := before name loaded found
    obtain ⟨order, written⟩ := mirrored.kept name collection was
    refine ⟨order, ?_⟩
    rw [toPersisted_congr same order]
    exact written
  · intro fileName contents file
    obtain ⟨name, collection, was, path⟩ :=
      mirrored.files fileName contents file
    have reloads := mirrored.reloads listing name
    rw [was] at reloads
    obtain ⟨loaded, found, _⟩ := Option.map_eq_some_iff.mp reloads
    exact ⟨name, loaded, found, path⟩

/-! ## Upserts -/

/-- The last point with an id is finite. -/
def StaysFinite (points : List PointStruct) : Prop :=
  ∀ before point after, points = before ++ point :: after →
    (∀ other ∈ after, other.id ≠ point.id) → Finite point.vector

/-- A point after upserts is one of before that none of them replaced, or the
last one of them with its id. -/
theorem upsertEach_fits {collection : Collection}
    (coherent : collection.Coherent) {points : List PointStruct}
    (fit : ∀ point ∈ points, point.vector.length = collection.dimension) :
    ∃ after, upsertEach collection points = (.ok (), after) ∧
      after.Coherent ∧
      ∀ id stored, after.points.lookup id = some stored →
        (collection.points.lookup id = some stored ∧
          ∀ point ∈ points, point.id ≠ id) ∨
        ∃ earlier point later, points = earlier ++ point :: later ∧
          point.id = id ∧ (∀ other ∈ later, other.id ≠ id) ∧
          stored.vector = point.vector := by
  induction points generalizing collection with
  | nil =>
      refine ⟨collection, rfl, coherent, ?_⟩
      intro id stored found
      refine .inl ⟨found, ?_⟩
      intro point member
      cases member
  | cons point rest ih =>
      obtain ⟨between, upserts, upserted⟩ := coherent.upsert_right point.id
        (point.payload.getD (.object [])) (fit point List.mem_cons_self)
      have fitRest : ∀ other ∈ rest,
          other.vector.length = between.dimension := by
        intro other member
        rw [upserted.dimension]
        exact fit other (List.mem_cons_of_mem point member)
      obtain ⟨after, others, ends, origin⟩ := ih upserted.coherent fitRest
      refine ⟨after, ?_, ends, ?_⟩
      · simp only [upsertEach, upserts, others]
      · intro id stored found
        rcases origin id stored found with
          ⟨kept, untouched⟩ | ⟨earlier, last, later, split, rest⟩
        · rw [upserted.points, lookup_insert] at kept
          split at kept
          · rename_i same
            cases kept
            exact .inr ⟨[], point, rest, rfl, same.symm, untouched, rfl⟩
          · rename_i different
            refine .inl ⟨kept, ?_⟩
            intro other member
            rcases List.mem_cons.mp member with first | later
            · rw [first]
              exact Ne.symm different
            · exact untouched other later
        · refine .inr ⟨point :: earlier, last, later, ?_, rest⟩
          rw [split]
          rfl

theorem upsertEach_wrong {collection : Collection} {point : PointStruct}
    (wrong : point.vector.length ≠ collection.dimension)
    (rest : List PointStruct) :
    ∃ error, upsertEach collection (point :: rest) =
      (.error error, collection) := by
  refine ⟨Collection.wrongDimension collection.dimension
    point.vector.length, ?_⟩
  simp only [upsertEach, Collection.upsert_wrong wrong]

/-- The upserts all succeed, or the first one fails. -/
def Whole (collection : Collection) (points : List PointStruct) : Prop :=
  (∃ point rest, points = point :: rest ∧
    point.vector.length ≠ collection.dimension) ∨
  (∀ point ∈ points, point.vector.length = collection.dimension) ∧
    StaysFinite points

theorem insert_same {map : HashMap Name Collection} {name : Name}
    {collection : Collection} (found : map.lookup name = some collection) :
    map.insert name collection = map := by
  apply Finmap.ext_lookup
  intro other
  rw [lookup_insert]
  split
  · rename_i same
    rw [same, found]
  · rfl

theorem Mirrored.upsertPoints (mirrored : Mirrored state)
    (listing : Listing PointId) {name : Name} {points : List PointStruct}
    (whole : ∀ collection, state.collections.lookup name = some collection →
      Whole collection points) :
    Mirrored (state.upsertPoints listing name points).2 := by
  unfold QdrantState.upsertPoints
  cases found : state.collections.lookup name with
  | none => exact mirrored
  | some collection =>
      rcases whole collection found with
        ⟨point, rest, rfl, wrong⟩ | ⟨fit, finite⟩
      · obtain ⟨error, fails⟩ := upsertEach_wrong wrong rest
        simp only [fails, insert_same found]
        exact mirrored
      · obtain ⟨nonempty, safe⟩ := mirrored.safe name collection found
        obtain ⟨after, upserts, coherent, origin⟩ :=
          upsertEach_fits (mirrored.coherent name collection found) fit
        simp only [upserts]
        apply mirrored.persist nonempty safe coherent
        intro id stored held
        rcases origin id stored held with
          ⟨kept, _⟩ | ⟨earlier, point, later, split, same, last, vector⟩
        · exact mirrored.finite name collection found id stored kept
        · rw [vector]
          rw [← same] at last
          exact finite earlier point later split last

/-! ## Deletions -/

theorem deleteEach_coherent {collection : Collection}
    (coherent : collection.Coherent) (ids : List PointId) :
    (ids.foldl Collection.deleteById collection).Coherent ∧
      ∀ id stored,
        (ids.foldl Collection.deleteById collection).points.lookup id =
          some stored → collection.points.lookup id = some stored := by
  induction ids generalizing collection with
  | nil => exact ⟨coherent, fun _ _ found => found⟩
  | cons first rest ih =>
      have deleted := coherent.deleteById first
      obtain ⟨ends, among⟩ := ih deleted.coherent
      refine ⟨ends, ?_⟩
      intro id stored found
      have kept := among id stored found
      rw [deleted.points] at kept
      by_cases same : id = first
      · rw [same, Finmap.lookup_erase] at kept
        cases kept
      · rwa [Finmap.lookup_erase_ne same] at kept

theorem Mirrored.deletePoints (mirrored : Mirrored state)
    (listing : Listing PointId) (name : Name) (request : DeleteRequest) :
    Mirrored (state.deletePoints listing name request).2 := by
  unfold QdrantState.deletePoints
  cases found : state.collections.lookup name with
  | none => exact mirrored
  | some collection =>
      obtain ⟨nonempty, safe⟩ := mirrored.safe name collection found
      obtain ⟨coherent, among⟩ := deleteEach_coherent
        (mirrored.coherent name collection found)
        (request.ids listing collection)
      apply mirrored.persist nonempty safe coherent
      intro id stored held
      exact mirrored.finite name collection found id stored
        (among id stored held)

/-! ## Runs -/

/-- A request, or the end of the process and a start on its directory. -/
inductive ServerEvent where
  | request (listing : Listing PointId) (request : Request)
  | restart (listing : Listing Name)

def QdrantState.perform (state : QdrantState) : ServerEvent → QdrantState
  | .request listing request => (state.handle listing request).2
  | .restart listing => .withDataDir listing state.files

/-- The names of collections are names of files, the upserts are whole. -/
def Durable (state : QdrantState) : ServerEvent → Prop
  | .request _ (.createCollection name _ _ _) =>
      name ≠ [] ∧ sanitizeName name = name
  | .request _ (.deleteCollection name) => sanitizeName name = name
  | .request _ (.upsertPoints name points) =>
      ∀ collection, state.collections.lookup name = some collection →
        Whole collection points
  | _ => True

theorem Mirrored.perform (mirrored : Mirrored state) {event : ServerEvent}
    (durable : Durable state event) : Mirrored (state.perform event) := by
  cases event with
  | restart listing => exact mirrored.restart listing
  | request listing request =>
      cases request with
      | createCollection name size distance m =>
          obtain ⟨nonempty, safe⟩ := durable
          apply mirrored.persist nonempty safe
          · exact Collection.coherent_new size _ m
          · intro id stored impossible
            cases impossible
      | deleteCollection name => exact mirrored.remove durable
      | upsertPoints name points =>
          exact mirrored.upsertPoints listing durable
      | deletePoints name request =>
          exact mirrored.deletePoints listing name request

/-- A step of the server. -/
def ServerStep (before : QdrantState) (event : ServerEvent)
    (after : QdrantState) : Prop :=
  before.perform event = after

def DurableStep (before : QdrantState) (event : ServerEvent)
    (after : QdrantState) : Prop :=
  ServerStep before event after ∧ Durable before event

theorem mirrored_run {events : List ServerEvent} {final : QdrantState}
    (run : Runs DurableStep ⟨∅, ∅⟩ events final) : Mirrored final := by
  apply run.invariant Mirrored _ mirrored_empty
  intro before event after mirrored step
  obtain ⟨rfl, durable⟩ := step
  exact mirrored.perform durable

/-- What a restart loads is what was in memory. -/
theorem restarts_faithfully {events : List ServerEvent} {final : QdrantState}
    (run : Runs DurableStep ⟨∅, ∅⟩ events final) (listing : Listing Name)
    (name : Name) :
    ((loadAllCollections listing final.files).lookup name).map
      Collection.contents =
      (final.collections.lookup name).map Collection.contents :=
  (mirrored_run run).reloads listing name

end

/-! ## A name that survives and one that does not -/

section

attribute [local instance] QdrantPlatform.integral

/-- A server with one collection. -/
noncomputable def created (name : Name) : QdrantState :=
  QdrantState.perform ⟨∅, ∅⟩ (.request (Listing.any PointId)
    (.createCollection name 1 (text "Cosine") none))

def onePoint : List PointStruct :=
  [{ id := .int 7, vector := [(5 : Int)], payload := none }]

/-- A point that was upserted is there after a restart. -/
theorem restarts_with_point :
    let final := (created ['a']).perform (.request (Listing.any PointId)
      (.upsertPoints ['a'] onePoint))
    ((loadAllCollections (Listing.any Name) final.files).lookup ['a']).map
      Collection.contents =
      (final.collections.lookup ['a']).map Collection.contents := by
  intro final
  have creates : DurableStep ⟨∅, ∅⟩ (.request (Listing.any PointId)
      (.createCollection ['a'] 1 (text "Cosine") none)) (created ['a']) :=
    ⟨rfl, by simp, by decide⟩
  have upserts : DurableStep (created ['a']) (.request (Listing.any PointId)
      (.upsertPoints ['a'] onePoint)) final := by
    refine ⟨rfl, ?_⟩
    intro collection found
    have new : collection = .new 1 (parseDistance (text "Cosine")) none := by
      have inserted : (created ['a']).collections.lookup ['a'] =
          some (.new 1 (parseDistance (text "Cosine")) none) :=
        Finmap.lookup_insert _
      cases inserted.symm.trans found
      rfl
    refine .inr ⟨?_, ?_⟩
    · intro point member
      rw [new, List.mem_singleton.mp member]
      rfl
    · intro before point after split _
      have member : point ∈ onePoint := by
        rw [split]
        simp
      rw [List.mem_singleton.mp member]
      intro value among
      rw [List.mem_singleton.mp among]
      exact ⟨.float (5 : Int), rfl⟩
  exact restarts_faithfully (.next creates (.next upserts (.done _)))
    (Listing.any Name) ['a']

/-- A collection whose name is not safe comes back under another name. -/
theorem restart_not_faithful :
    ¬ ∀ (events : List ServerEvent) (final : QdrantState),
      Runs ServerStep ⟨∅, ∅⟩ events final →
      ∀ (listing : Listing Name) (name : Name),
        ((loadAllCollections listing final.files).lookup name).map
          Collection.contents =
          (final.collections.lookup name).map Collection.contents := by
  intro faithful
  have same := faithful _ (created ['a', '/', 'b']) (.next rfl (.done _))
    (Listing.any Name) ['a', '/', 'b']
  have present : (created ['a', '/', 'b']).collections.lookup ['a', '/', 'b'] =
      some (.new 1 (parseDistance (text "Cosine")) none) :=
    Finmap.lookup_insert _
  rw [present] at same
  obtain ⟨loaded, found, _⟩ := Option.map_eq_some_iff.mp same
  rcases mem_of_lookup_insertAll found with member | impossible
  · obtain ⟨⟨fileName, contents⟩, listed, loads⟩ :=
      List.mem_filterMap.mp member
    have path := loadCollection_path loads
    have file := (Listing.mem_entries _ _ _ _).mp listed
    have other : fileName ≠ collectionPath ['a', '/', 'b'] := by
      rw [path]
      decide
    have absent : (created ['a', '/', 'b']).files.lookup fileName = none :=
      Finmap.lookup_insert_of_ne _ other
    cases absent.symm.trans file
  · cases impossible

end

end RedVector.Qdrant
