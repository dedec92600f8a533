import RedVector.Effect.LruCache
import RedVector.VectorSearch.Index

/-!
# The store of the vectors

Tables on disk and a cache of the vectors in front of one of them.  A
transaction that fails leaves the tables as they are.
-/

namespace RedVector.VectorSearch

open Effect

variable [VectorPlatform]

structure IndexMetadata where
  dimension : Nat
  metric : Bytes
  numVectors : Nat
  m : Nat
  efConstruction : Nat
  efSearch : Nat

/-- What is on disk. -/
structure Tables where
  vectors : HashMap DocId Vector32
  indexConfig : HashMap Bytes IndexMetadata

/-- The tables of a new database. -/
def Tables.empty : Tables :=
  { vectors := ∅, indexConfig := ∅ }

structure RedbVectorStorage where
  db : Tables
  cache : LruCache DocId Vector32

namespace RedbVectorStorage

def openWithCacheSize (db : Tables) (cacheSize : Nat)
    (positive : 0 < cacheSize) : RedbVectorStorage :=
  { db := db, cache := .new cacheSize positive }

/-- `open` finds the tables of an earlier run. -/
def openAt (db : Tables) : RedbVectorStorage :=
  openWithCacheSize db 10000 (by decide)

/-! The two steps of a store: the cache first, the tables afterwards. -/

def cacheVectors (storage : RedbVectorStorage)
    (vectors : List (DocId × Vector32)) : RedbVectorStorage :=
  { storage with cache := storage.cache.putAll vectors }

def commitVectors (storage : RedbVectorStorage)
    (vectors : List (DocId × Vector32)) : RedbVectorStorage :=
  { storage with db := { storage.db with
      vectors := insertAll storage.db.vectors vectors } }

/-! A transaction fails with a text, or it does not. -/

def storeVectorsBatch (storage : RedbVectorStorage) (failure : Option Bytes)
    (vectors : List (DocId × Vector32)) :
    Except Bytes Unit × RedbVectorStorage :=
  if vectors.isEmpty then (.ok (), storage)
  else
    let storage := storage.cacheVectors vectors
    match failure with
    | some error => (.error error, storage)
    | none => (.ok (), storage.commitVectors vectors)

def storeVector (storage : RedbVectorStorage) (failure : Option Bytes)
    (docId : DocId) (vector : Vector32) :
    Except Bytes Unit × RedbVectorStorage :=
  let storage := storage.cacheVectors [(docId, vector)]
  match failure with
  | some error => (.error error, storage)
  | none => (.ok (), storage.commitVectors [(docId, vector)])

/-- A vector that is only in the table is cached. -/
def getVector (storage : RedbVectorStorage) (failure : Option Bytes)
    (docId : DocId) : Except Bytes (Option Vector32) × RedbVectorStorage :=
  match storage.cache.get docId with
  | (some vector, cache) =>
      (.ok (some vector), { storage with cache := cache })
  | (none, _) =>
      match failure with
      | some error => (.error error, storage)
      | none =>
          match storage.db.vectors.lookup docId with
          | none => (.ok none, storage)
          | some vector =>
              (.ok (some vector), storage.cacheVectors [(docId, vector)])

def storeIndexMetadata (storage : RedbVectorStorage)
    (failure : Option Bytes) (indexName : Bytes) (metadata : IndexMetadata) :
    Except Bytes Unit × RedbVectorStorage :=
  match failure with
  | some error => (.error error, storage)
  | none =>
      (.ok (), { storage with db := { storage.db with
        indexConfig := storage.db.indexConfig.insert indexName metadata } })

def getIndexMetadata (storage : RedbVectorStorage) (indexName : Bytes) :
    Option IndexMetadata :=
  storage.db.indexConfig.lookup indexName

def clearCache (storage : RedbVectorStorage) : RedbVectorStorage :=
  { storage with cache := storage.cache.clear }

/-- A vector that is cached as it is stored, or not at all, is answered as it
is stored. -/
theorem getVector_stored {storage : RedbVectorStorage} {docId : DocId}
    (agree : ∀ vector, storage.cache.peek docId = some vector →
      storage.db.vectors.lookup docId = some vector) :
    (storage.getVector none docId).1 =
      .ok (storage.db.vectors.lookup docId) := by
  have found := storage.cache.get_fst docId
  unfold getVector
  split
  · rename_i vector cache got
    rw [got] at found
    rw [agree vector found.symm]
  · cases storage.db.vectors.lookup docId with
    | none => rfl
    | some vector => rfl

end RedbVectorStorage

end RedVector.VectorSearch
