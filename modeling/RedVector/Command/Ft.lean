import RedVector.Command.Macros
import RedVector.VectorSearch.Persistent

/-!
# The commands of the vector search

The handlers of the FT commands.  They work on the keyspace and on a table of
indexes that the whole process shares.
-/

namespace RedVector.Command

open Effect Util VectorSearch

variable [Platform] [VectorPlatform]

/-- The indexes by database and name. -/
abbrev IndexStorage := HashMap (Nat × Bytes) PersistentVectorIndex

structure FtState where
  db : Database
  indexStorage : IndexStorage

/-- What the commands read besides their arguments and the state. -/
structure FtEnv where
  env : Env
  listing : Listing DocId
  /-- The tables that a new index finds, or none if they cannot be opened;
  in memory they are empty. -/
  opened : Nat → Bytes → Option Tables
  storeFailure : Option Bytes
  snapshotFailure : Option Bytes

def indexMetaKey (indexName : Bytes) : Bytes :=
  text "ft:meta:" ++ indexName

def getIndex (state : FtState) (dbindex : Nat) (indexName : Bytes) :
    Option PersistentVectorIndex :=
  state.indexStorage.lookup (dbindex, indexName)

def setIndex (state : FtState) (dbindex : Nat) (indexName : Bytes)
    (index : PersistentVectorIndex) : FtState :=
  { state with
    indexStorage := state.indexStorage.insert (dbindex, indexName) index }

/-- A failure to open the tables panics. -/
def createIndex (ft : FtEnv) (state : FtState) (dbindex : Nat)
    (indexName : Bytes) (dimension : Nat) (metric : VectorMetric) :
    Option (PersistentVectorIndex × FtState) := do
  let tables ← ft.opened dbindex indexName
  let index := PersistentVectorIndex.new indexName dimension metric tables 1000
  pure (index, setIndex state dbindex indexName index)

/-- Whether an index of this name exists. -/
def indexExists (ft : FtEnv) (state : FtState) (dbindex : Nat)
    (indexName : Bytes) : Bool :=
  (state.db.get ft.env dbindex (indexMetaKey indexName)).isSome

/-! ## FT.CREATE -/

/-- The dimension that a type such as `VECTOR(4)` names.  A parenthesis that is
closed before it is opened panics. -/
def vectorDimension (fieldType : Bytes) (dimension : Nat) : Option Nat :=
  match fieldType.findIdx? (· = 40), fieldType.findIdx? (· = 41) with
  | some start, some end' =>
      if start + 1 ≤ end' then
        some ((parseUsize ((fieldType.take end').drop (start + 1))).getD
          dimension)
      else none
  | _, _ => some dimension

/-- Whether the fields name a vector, and the dimension of the last one. -/
def schemaFields : List Bytes → Bool → Nat → Option (Bool × Nat)
  | fieldName :: fieldType :: rest, hasVector, dimension =>
      if isUtf8 fieldName && isUtf8 fieldType then
        if (text "VECTOR").isPrefixOf
            (VectorPlatform.strToUppercase fieldType) then do
          let dimension ← vectorDimension fieldType dimension
          schemaFields rest true dimension
        else schemaFields rest hasVector dimension
      else some (hasVector, dimension)
  | _, hasVector, dimension => some (hasVector, dimension)

/-- The fields behind the first word `SCHEMA` that is not the last argument. -/
def schema : List Bytes → Option (Bool × Nat)
  | keyword :: rest =>
      if isUtf8 keyword &&
          decide (VectorPlatform.strToUppercase keyword = text "SCHEMA") &&
          !rest.isEmpty then
        schemaFields rest false 128
      else schema rest
  | [] => some (false, 128)

def ftCreate (ft : FtEnv) (argv : Arguments) (dbindex : Nat)
    (state : FtState) : Option (Response × FtState) :=
  match (do
      validateArgumentsGte argv 2
      tryValidate (argv.getStr 1) "ERR invalid index name" :
        Except Response Bytes) with
  | .error reply => some (reply, state)
  | .ok indexName =>
      if indexName.isEmpty then
        some (.fail "ERR index name cannot be empty", state)
      else if indexExists ft state dbindex indexName then
        some (.fail "ERR index already exists", state)
      else do
        let (hasVector, dimension) ← schema (argv.drop 2)
        let state ←
          if hasVector then
            (createIndex ft state dbindex indexName dimension .cosine).map
              Prod.snd
          else some state
        let metaKey := indexMetaKey indexName
        let (_, db) ← state.db.getOrCreate ft.env dbindex metaKey
        let db := db.put dbindex metaKey
          (.setString (text "dimension:" ++ natToString dimension))
        pure (.ok, { state with db := db })

/-! ## FT.SEARCH and FT.INFO -/

/-- Numbers between commas. -/
def parseVector (input : Bytes) : Option Vector32 :=
  (input.splitOn 44).mapM VectorPlatform.f32Parse

def ftSearch (ft : FtEnv) (argv : Arguments) (dbindex : Nat)
    (state : FtState) : Response :=
  match (do
      validateArgumentsGte argv 3
      let indexName ← tryValidate (argv.getStr 1) "ERR invalid index name"
      let query ← tryValidate (argv.getStr 2) "ERR invalid query"
      pure (indexName, query) : Except Response (Bytes × Bytes)) with
  | .error reply => reply
  | .ok (indexName, query) =>
      if !indexExists ft state dbindex indexName then
        .fail "ERR no such index"
      else if query = text "*" then .array [.integer 0]
      else
        let results := do
          let index ← getIndex state dbindex indexName
          let queryVector ← parseVector query
          (index.search ft.listing queryVector 10).toOption
        match results with
        | some results =>
            .array (.integer results.length :: results.map fun result =>
              .array [.data (natToString result.1.toNat),
                .data (text "score"),
                .data (VectorPlatform.f32ToString result.2)])
        | none => .array [.integer 0]

def ftInfo (ft : FtEnv) (argv : Arguments) (dbindex : Nat)
    (state : FtState) : Response :=
  match (do
      validateArgumentsExact argv 2
      tryValidate (argv.getStr 1) "ERR invalid index name" :
        Except Response Bytes) with
  | .error reply => reply
  | .ok indexName =>
      if !indexExists ft state dbindex indexName then
        .fail "ERR no such index"
      else
        let numDocs :=
          match getIndex state dbindex indexName with
          | some index => index.len
          | none => 0
        .array [.data (text "index_name"), .data indexName,
          .data (text "num_docs"), .data (natToString numDocs),
          .data (text "index_definition"), .array []]

/-! ## FT.DROP -/

def ftDrop (ft : FtEnv) (argv : Arguments) (dbindex : Nat)
    (state : FtState) : Option (Response × FtState) :=
  match (do
      validateArgumentsGte argv 2
      tryValidate (argv.getStr 1) "ERR invalid index name" :
        Except Response Bytes) with
  | .error reply => some (reply, state)
  | .ok indexName =>
      if !indexExists ft state dbindex indexName then
        some (.fail "ERR no such index", state)
      else do
        let (_, db) ←
          state.db.remove ft.env dbindex (indexMetaKey indexName)
        pure (.ok,
          { db := db
            indexStorage := state.indexStorage.erase (dbindex, indexName) })

/-! ## FT.ADD -/

/-- The last vector among the fields. -/
def vectorField : List Bytes → Option Vector32 → Option Vector32
  | fname :: fval :: rest, vector =>
      if isUtf8 fname && isUtf8 fval then
        if text "vector" <:+: VectorPlatform.strToLowercase fname then
          vectorField rest ((parseVector fval).orElse fun _ => vector)
        else vectorField rest vector
      else vector
  | _, vector => vector

/-- The vector among the fields behind the first word `FIELDS`. -/
def fieldsVector : List Bytes → Option Vector32
  | field :: value :: rest =>
      if isUtf8 field && isUtf8 value &&
          decide (VectorPlatform.strToUppercase field = text "FIELDS") then
        vectorField (value :: rest) none
      else fieldsVector (value :: rest)
  | _ => none

/-- The number that an index knows a document by. -/
def documentNumber (docId : Bytes) : DocId :=
  docId.foldl (fun number byte => number * 31 + byte.toUInt64) 0

/-- The index of this name, which is created for the dimension of its first
vector. -/
def getOrCreateIndex (ft : FtEnv) (state : FtState) (dbindex : Nat)
    (indexName : Bytes) (dimension : Nat) :
    Option (PersistentVectorIndex × FtState) :=
  match getIndex state dbindex indexName with
  | some index => some (index, state)
  | none => createIndex ft state dbindex indexName dimension .cosine

def ftAdd (ft : FtEnv) (argv : Arguments) (dbindex : Nat)
    (state : FtState) : Option (Response × FtState) :=
  match (do
      validateArgumentsGte argv 4
      let indexName ← tryValidate (argv.getStr 1) "ERR invalid index name"
      let docId ← tryValidate (argv.getStr 2) "ERR invalid document ID"
      let _ ← tryValidate (argv.getF64 3) "ERR invalid score"
      pure (indexName, docId) : Except Response (Bytes × Bytes)) with
  | .error reply => some (reply, state)
  | .ok (indexName, docId) =>
      if !indexExists ft state dbindex indexName then
        some (.fail "ERR no such index", state)
      else
        match fieldsVector (argv.drop 4) with
        | none => some (.ok, state)
        | some vector => do
            let (index, state) ←
              getOrCreateIndex ft state dbindex indexName vector.length
            let (added, index) := index.add ft.storeFailure ft.snapshotFailure
              (documentNumber docId) vector
            let reply :=
              match added with
              | .error error =>
                  .error (text "ERR failed to add vector: " ++ error)
              | .ok _ => .ok
            pure (reply, setIndex state dbindex indexName index)

/-! ## FT.DEL -/

/-- Whether the argument at a position is the word `DD`. -/
def deletesKey (argv : Arguments) (position : Nat) : Bool :=
  match argv.getStr position with
  | .ok option => decide (VectorPlatform.strToUppercase option = text "DD")
  | .error _ => false

/-- Removes a document from the index, if there is one. -/
def removeDocument (state : FtState) (dbindex : Nat)
    (indexName docId : Bytes) : Bool × FtState :=
  match getIndex state dbindex indexName with
  | none => (false, state)
  | some index =>
      let (removed, index) := index.remove (documentNumber docId)
      (removed.isOk, setIndex state dbindex indexName index)

def ftDel (ft : FtEnv) (argv : Arguments) (dbindex : Nat)
    (state : FtState) : Option (Response × FtState) :=
  match (do
      validateArgumentsGte argv 3
      let indexName ← tryValidate (argv.getStr 1) "ERR invalid index name"
      let docId ← tryValidate (argv.getStr 2) "ERR invalid document ID"
      pure (indexName, docId) : Except Response (Bytes × Bytes)) with
  | .error reply => some (reply, state)
  | .ok (indexName, docId) =>
      if !indexExists ft state dbindex indexName then
        some (.fail "ERR no such index", state)
      else
        let (deleted, state) := removeDocument state dbindex indexName docId
        if deletesKey argv 3 then do
          let (_, db) ← state.db.remove ft.env dbindex docId
          pure (bit deleted, { state with db := db })
        else some (bit deleted, state)

end RedVector.Command
