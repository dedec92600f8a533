import RedVector.VectorSearch.HnswVectorIndex

/-!
# What the Qdrant API takes from outside

The JSON values of `serde_json`, whose numbers are a parameter as far as they
are floating-point numbers.
-/

namespace RedVector

/-- A number of a JSON value. -/
inductive JsonNumber (Double : Type) where
  | posInt (value : Nat)
  | negInt (value : Int)
  | float (value : Double)

class QdrantPlatform extends VectorPlatform where
  Double : Type
  /-- `as_f64`. -/
  asF64 : JsonNumber Double → Double
  doubleEq : Double → Double → Bool
  /-- What is read back for a number that is written; a number that is not
  finite is written as `null`. -/
  f32Written : F32 → Option (JsonNumber Double)
  f32OfNumber : JsonNumber Double → F32
  /-- A finite number is read back as it was. -/
  f32_written : ∀ value number, f32Written value = some number →
    f32OfNumber number = value
  /-- The case mapping of ASCII. -/
  strToLowercase_ascii : ∀ bytes : Bytes, (∀ byte ∈ bytes, byte < 128) →
    strToLowercase bytes = Util.lowercase bytes

export QdrantPlatform (Double)

/-- The integers as numbers, of which those above a bound are infinite. -/
@[reducible] def QdrantPlatform.integral : QdrantPlatform where
  toVectorPlatform := .integral
  Double := Int
  asF64 := fun number =>
    match number with
    | .posInt value => value
    | .negInt value => value
    | .float value => value
  doubleEq := fun a b => decide (a = b)
  f32Written := fun value : Int =>
    if value < 1000000 then some (.float value) else none
  f32OfNumber := fun number =>
    match number with
    | .posInt value => (value : Int)
    | .negInt value => value
    | .float value => value
  f32_written := by
    intro value number written
    split at written
    · cases written
      rfl
    · cases written
  strToLowercase_ascii := fun _ _ => rfl

namespace Qdrant

variable [QdrantPlatform]

/-- The fields of an object are in the order of its map. -/
inductive Json where
  | null
  | bool (value : Bool)
  | number (value : JsonNumber Double)
  | string (value : Bytes)
  | array (elements : List Json)
  | object (fields : List (Bytes × Json))

/-- `PartialEq` of numbers. -/
def numberEq : JsonNumber Double → JsonNumber Double → Bool
  | .posInt a, .posInt b => a == b
  | .negInt a, .negInt b => a == b
  | .float a, .float b => QdrantPlatform.doubleEq a b
  | _, _ => false

namespace Json

mutual

def eq : Json → Json → Bool
  | .null, .null => true
  | .bool a, .bool b => a == b
  | .number a, .number b => numberEq a b
  | .string a, .string b => a == b
  | .array a, .array b => elementsEq a b
  | .object a, .object b => fieldsEq a b
  | _, _ => false

def elementsEq : List Json → List Json → Bool
  | [], [] => true
  | a :: as, b :: bs => eq a b && elementsEq as bs
  | _, _ => false

def fieldsEq : List (Bytes × Json) → List (Bytes × Json) → Bool
  | [], [] => true
  | (name, a) :: as, (other, b) :: bs =>
      name == other && eq a b && fieldsEq as bs
  | _, _ => false

end

/-- `get` with a name. -/
def get (value : Json) (name : Bytes) : Option Json :=
  match value with
  | .object fields => fields.lookup name
  | _ => none

end Json

end Qdrant

end RedVector

/-!
## Collections

The points of a collection, and the index with the numbers that stand for
them there.
-/

namespace RedVector.Qdrant

open Effect Util VectorSearch

variable [QdrantPlatform]

/-- A point id; a number is a `u64`. -/
inductive PointId where
  | int (value : Nat)
  | str (value : Bytes)
  deriving DecidableEq

structure StoredPoint where
  vector : Vector32
  payload : Json

structure Collection where
  index : HnswVectorIndex
  dimension : Nat
  distance : VectorMetric
  points : HashMap PointId StoredPoint
  idToUid : HashMap PointId Nat
  uidToId : HashMap Nat PointId
  nextUid : Nat

structure PersistedPoint where
  id : PointId
  vector : Vector32
  payload : Json

structure PersistedCollection where
  dimension : Nat
  distance : Bytes
  points : List PersistedPoint

def parseDistance (name : Bytes) : VectorMetric :=
  let name := VectorPlatform.strToLowercase name
  if name ∈ [text "euclid", text "euclidean", text "l2"] then .euclidean
  else if name ∈ [text "dot", text "innerproduct", text "ip"] then
    .innerProduct
  else .cosine

def distanceName : VectorMetric → Bytes
  | .cosine => text "Cosine"
  | .euclidean => text "Euclid"
  | .innerProduct => text "Dot"

namespace Collection

def new (dimension : Nat) (distance : VectorMetric) (m : Option Nat) :
    Collection where
  index := .new dimension distance m (some 200)
  dimension := dimension
  distance := distance
  points := ∅
  idToUid := ∅
  uidToId := ∅
  nextUid := 0

def wrongDimension (expected got : Nat) : Bytes :=
  text "Wrong input: Vector dimension error: expected dim: " ++
    natToString expected ++ text ", got " ++ natToString got

/-- Drops the mapping of a point that is about to be replaced. -/
def detach (collection : Collection) (id : PointId) : Collection :=
  match collection.idToUid.lookup id with
  | some oldUid =>
      { collection with
        index := collection.index.removed oldUid
        uidToId := collection.uidToId.erase oldUid }
  | none => collection

/-- Stores a point under the next number. -/
def assign (collection : Collection) (id : PointId) (vector : Vector32)
    (payload : Json) : Except Bytes Unit × Collection :=
  let uid := collection.nextUid
  let collection := { collection with nextUid := uid + 1 }
  match collection.index.add uid vector with
  | .error error => (.error error, collection)
  | .ok index =>
      (.ok (), { collection with
        index := index
        idToUid := collection.idToUid.insert id uid
        uidToId := collection.uidToId.insert uid id
        points := collection.points.insert id ⟨vector, payload⟩ })

/-- Inserts or replaces a point. -/
def upsert (collection : Collection) (id : PointId) (vector : Vector32)
    (payload : Json) : Except Bytes Unit × Collection :=
  if vector.length ≠ collection.dimension then
    (.error (wrongDimension collection.dimension vector.length), collection)
  else (collection.detach id).assign id vector payload

def deleteById (collection : Collection) (id : PointId) : Collection :=
  let collection :=
    match collection.idToUid.lookup id with
    | some uid =>
        { collection with
          idToUid := collection.idToUid.erase id
          index := collection.index.removed uid
          uidToId := collection.uidToId.erase uid }
    | none => collection
  { collection with points := collection.points.erase id }

/-- The points are in the order in which their map lists them. -/
def toPersisted (listing : Listing PointId) (collection : Collection) :
    PersistedCollection where
  dimension := collection.dimension
  distance := distanceName collection.distance
  points := (listing.entries collection.points).map fun (id, stored) =>
    ⟨id, stored.vector, stored.payload⟩

/-- The errors are ignored. -/
def upsertAll (collection : Collection) (points : List PersistedPoint) :
    Collection :=
  points.foldl (fun collection point =>
    (collection.upsert point.id point.vector point.payload).2) collection

def fromPersisted (persisted : PersistedCollection) : Collection :=
  (new persisted.dimension (parseDistance persisted.distance) none).upsertAll
    persisted.points

end Collection

end RedVector.Qdrant
