import RedVector.Qdrant.Collection

/-!
# The persisted form of a collection

A persisted collection as a JSON value and back.  What is not finite becomes
`null`, which is not read as a number.
-/

namespace RedVector.Qdrant

open Effect Util VectorSearch

section

variable [QdrantPlatform]

/-! ## Writing -/

def f32Json (value : F32) : Json :=
  match QdrantPlatform.f32Written value with
  | some number => .number number
  | none => .null

def vectorJson (vector : Vector32) : Json :=
  .array (vector.map f32Json)

/-- `untagged`. -/
def PointId.toJson : PointId → Json
  | int value => .number (.posInt value)
  | str value => .string value

def PersistedPoint.toJson (point : PersistedPoint) : Json :=
  .object [(text "id", point.id.toJson), (text "vector",
    vectorJson point.vector), (text "payload", point.payload)]

def PersistedCollection.toJson (persisted : PersistedCollection) : Json :=
  .object [(text "dimension", .number (.posInt persisted.dimension)),
    (text "distance", .string persisted.distance),
    (text "points", .array (persisted.points.map PersistedPoint.toJson))]

/-! ## Reading -/

def readNat : Json → Option Nat
  | .number (.posInt value) => some value
  | _ => none

def readString : Json → Option Bytes
  | .string value => some value
  | _ => none

def readArray : Json → Option (List Json)
  | .array elements => some elements
  | _ => none

def readF32 : Json → Option F32
  | .number number => some (QdrantPlatform.f32OfNumber number)
  | _ => none

/-- The first variant that reads the value. -/
def PointId.ofJson : Json → Option PointId
  | .number (.posInt value) => some (.int value)
  | .string value => some (.str value)
  | _ => none

def PersistedPoint.ofJson (json : Json) : Option PersistedPoint := do
  let id ← PointId.ofJson (← json.get (text "id"))
  let vector ← (← readArray (← json.get (text "vector"))).mapM readF32
  let payload ← json.get (text "payload")
  some ⟨id, vector, payload⟩

def PersistedCollection.ofJson (json : Json) : Option PersistedCollection := do
  let dimension ← readNat (← json.get (text "dimension"))
  let distance ← readString (← json.get (text "distance"))
  let points ← (← readArray (← json.get (text "points"))).mapM
    PersistedPoint.ofJson
  some ⟨dimension, distance, points⟩

/-! ## Round trips -/

/-- Every component is written as a number. -/
def Finite (vector : Vector32) : Prop :=
  ∀ value ∈ vector, ∃ number, QdrantPlatform.f32Written value = some number

omit [QdrantPlatform] in
theorem mapM_map {α β : Type} {write : α → β} {read : β → Option α}
    {values : List α} (back : ∀ value ∈ values,
      read (write value) = some value) :
    (values.map write).mapM read = some values := by
  induction values with
  | nil => rfl
  | cons value rest ih =>
      rw [List.map_cons, List.mapM_cons, back value List.mem_cons_self,
        ih (fun other member => back other (List.mem_cons_of_mem value member))]
      rfl

theorem readF32_f32Json {value : F32} {number : JsonNumber Double}
    (written : QdrantPlatform.f32Written value = some number) :
    readF32 (f32Json value) = some value := by
  simp only [f32Json, written, readF32,
    QdrantPlatform.f32_written value number written]

theorem PointId.ofJson_toJson (id : PointId) :
    PointId.ofJson id.toJson = some id := by
  cases id with
  | int value => rfl
  | str value => rfl

/-- The names of the fields are different from each other. -/
theorem PersistedPoint.ofJson_toJson {point : PersistedPoint}
    (finite : Finite point.vector) :
    PersistedPoint.ofJson point.toJson = some point := by
  have id : point.toJson.get (text "id") = some point.id.toJson := rfl
  have vector : point.toJson.get (text "vector") =
      some (vectorJson point.vector) := rfl
  have payload : point.toJson.get (text "payload") = some point.payload := rfl
  have components : (point.vector.map f32Json).mapM readF32 =
      some point.vector := by
    apply mapM_map
    intro value member
    obtain ⟨number, written⟩ := finite value member
    exact readF32_f32Json written
  simp only [PersistedPoint.ofJson, id, vector, payload, Option.bind_eq_bind,
    Option.bind_some, PointId.ofJson_toJson, vectorJson, readArray, components]

theorem PersistedCollection.ofJson_toJson {persisted : PersistedCollection}
    (finite : ∀ point ∈ persisted.points, Finite point.vector) :
    PersistedCollection.ofJson persisted.toJson = some persisted := by
  have dimension : persisted.toJson.get (text "dimension") =
      some (.number (.posInt persisted.dimension)) := rfl
  have distance : persisted.toJson.get (text "distance") =
      some (.string persisted.distance) := rfl
  have points : persisted.toJson.get (text "points") =
      some (.array (persisted.points.map PersistedPoint.toJson)) := rfl
  have elements : (persisted.points.map PersistedPoint.toJson).mapM
      PersistedPoint.ofJson = some persisted.points := by
    apply mapM_map
    intro point member
    exact PersistedPoint.ofJson_toJson (finite point member)
  simp only [PersistedCollection.ofJson, dimension, distance, points,
    Option.bind_eq_bind, Option.bind_some, readNat, readString, readArray,
    elements]

/-- The name of a distance stands for it. -/
theorem parseDistance_distanceName (distance : VectorMetric) :
    parseDistance (distanceName distance) = distance := by
  have ascii : ∀ byte ∈ distanceName distance, byte < 128 := by
    cases distance
    all_goals simp [distanceName, text]
  rw [parseDistance, QdrantPlatform.strToLowercase_ascii _ ascii]
  cases distance
  all_goals rfl

end

/-!
## The Qdrant API

The requests that change collections, and the files that the collections are
kept in.  The operations on the files succeed: a file that is written under a
temporary name takes the place of the one before it.
-/

section

/-- A name is a sequence of characters. -/
abbrev Name := List Char

def utf8 (name : Name) : Bytes :=
  (String.ofList name).toUTF8.toList

/-! ## File names -/

def isSafe (c : Char) : Bool :=
  c.isAlphanum || c == '-' || c == '_' || c == '.'

def sanitizeName (name : Name) : Name :=
  name.map fun c => if isSafe c then c else '_'

def json : Name := ['j', 's', 'o', 'n']

/-- The file of a collection in the data directory. -/
def collectionPath (name : Name) : Name :=
  sanitizeName name ++ '.' :: json

/-- `file_stem` and `extension`: the last dot parts them, unless it is the
first character. -/
def splitExtension (fileName : Name) : Name × Option Name :=
  match fileName.reverse.dropWhile (· ≠ '.') with
  | _ :: before@(_ :: _) =>
      (before.reverse,
        some (fileName.reverse.takeWhile (· ≠ '.')).reverse)
  | _ => (fileName, none)

variable [QdrantPlatform]

/-! ## Filters -/

structure FieldCondition where
  key : Bytes
  /-- The value of the clause. -/
  matchValue : Option Json

structure Filter where
  must : Option (List FieldCondition)
  should : Option (List FieldCondition)
  mustNot : Option (List FieldCondition)

/-- The parts of the key lead into the payload. -/
def resolveKey (payload : Json) (key : Bytes) : Option Json :=
  (key.splitOn 46).foldlM Json.get payload

def valuesEq (actual expected : Json) : Bool :=
  actual.eq expected ||
    match actual, expected with
    | .number a, .number b =>
        QdrantPlatform.doubleEq (QdrantPlatform.asF64 a)
          (QdrantPlatform.asF64 b)
    | _, _ => false

def conditionMatches (payload : Json) (condition : FieldCondition) : Bool :=
  match resolveKey payload condition.key with
  | none => false
  | some actual =>
      match condition.matchValue with
      | some value => valuesEq actual value
      | none => true

def passesFilter (payload : Json) (filter : Filter) : Bool :=
  let all := fun conditions : List FieldCondition =>
    conditions.all (conditionMatches payload)
  let any := fun conditions : List FieldCondition =>
    conditions.any (conditionMatches payload)
  filter.must.all all && filter.mustNot.all (fun unwanted => !any unwanted) &&
    filter.should.all fun wanted => wanted.isEmpty || any wanted

/-! ## The state -/

/-- The collections in memory and the files of the data directory. -/
structure QdrantState where
  collections : HashMap Name Collection
  files : HashMap Name Json

def persistCollection (listing : Listing PointId) (files : HashMap Name Json)
    (name : Name) (collection : Collection) : HashMap Name Json :=
  files.insert (collectionPath name) (collection.toPersisted listing).toJson

def removeCollectionFile (files : HashMap Name Json) (name : Name) :
    HashMap Name Json :=
  files.erase (collectionPath name)

/-- The collection of a file, if it is one. -/
def loadCollection (entry : Name × Json) : Option (Name × Collection) :=
  match splitExtension entry.1 with
  | (name, some extension) =>
      if extension = json then
        (PersistedCollection.ofJson entry.2).map fun persisted =>
          (name, Collection.fromPersisted persisted)
      else none
  | (_, none) => none

/-- The files are in the order in which the directory lists them. -/
def loadAllCollections (listing : Listing Name) (files : HashMap Name Json) :
    HashMap Name Collection :=
  insertAll ∅ ((listing.entries files).filterMap loadCollection)

/-! ## Requests -/

structure PointStruct where
  id : PointId
  vector : Vector32
  payload : Option Json

inductive DeleteRequest where
  | byIds (points : List PointId)
  | byFilter (filter : Filter)

/-- A request that may change a collection. -/
inductive Request where
  | createCollection (name : Name) (size : Nat) (distance : Bytes)
      (m : Option Nat)
  | deleteCollection (name : Name)
  | upsertPoints (name : Name) (points : List PointStruct)
  | deletePoints (name : Name) (request : DeleteRequest)

inductive Answer where
  | ok
  | updated
  | notFound (message : Bytes)
  | badRequest (message : Bytes)

def missing (name : Name) : Answer :=
  .notFound (text "Collection `" ++ utf8 name ++ text "` doesn't exist!")

/-- Upserts up to the first error. -/
def upsertEach (collection : Collection) :
    List PointStruct → Except Bytes Unit × Collection
  | [] => (.ok (), collection)
  | point :: rest =>
      match collection.upsert point.id point.vector
          (point.payload.getD (.object [])) with
      | (.error error, after) => (.error error, after)
      | (.ok (), after) => upsertEach after rest

/-- The ids that a request deletes. -/
def DeleteRequest.ids (listing : Listing PointId) (collection : Collection) :
    DeleteRequest → List PointId
  | byIds points => points
  | byFilter filter =>
      ((listing.entries collection.points).filter fun entry =>
        passesFilter entry.2.payload filter).map Prod.fst

namespace QdrantState

def createCollection (listing : Listing PointId) (state : QdrantState)
    (name : Name) (size : Nat) (distance : Bytes) (m : Option Nat) :
    Answer × QdrantState :=
  let collection := Collection.new size (parseDistance distance) m
  (.ok,
    { collections := state.collections.insert name collection
      files := persistCollection listing state.files name collection })

def deleteCollection (state : QdrantState) (name : Name) :
    Answer × QdrantState :=
  (.ok,
    { collections := state.collections.erase name
      files := removeCollectionFile state.files name })

/-- An error leaves the points before it in memory. -/
def upsertPoints (listing : Listing PointId) (state : QdrantState)
    (name : Name) (points : List PointStruct) : Answer × QdrantState :=
  match state.collections.lookup name with
  | none => (missing name, state)
  | some collection =>
      match upsertEach collection points with
      | (.error error, after) =>
          (.badRequest error, { state with
            collections := state.collections.insert name after })
      | (.ok (), after) =>
          (.updated,
            { collections := state.collections.insert name after
              files := persistCollection listing state.files name after })

def deletePoints (listing : Listing PointId) (state : QdrantState)
    (name : Name) (request : DeleteRequest) : Answer × QdrantState :=
  match state.collections.lookup name with
  | none => (missing name, state)
  | some collection =>
      let after := (request.ids listing collection).foldl
        Collection.deleteById collection
      (.updated,
        { collections := state.collections.insert name after
          files := persistCollection listing state.files name after })

def handle (listing : Listing PointId) (state : QdrantState) :
    Request → Answer × QdrantState
  | .createCollection name size distance m =>
      state.createCollection listing name size distance m
  | .deleteCollection name => state.deleteCollection name
  | .upsertPoints name points => state.upsertPoints listing name points
  | .deletePoints name request => state.deletePoints listing name request

/-- `with_data_dir`. -/
def withDataDir (listing : Listing Name) (files : HashMap Name Json) :
    QdrantState where
  collections := loadAllCollections listing files
  files := files

end QdrantState

end

end RedVector.Qdrant
