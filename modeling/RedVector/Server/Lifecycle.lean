import RedVector.Command.Asides
import RedVector.Command.Documents
import RedVector.Database.Lasting
import RedVector.Server.Server

/-!
# Indexes and the keys that name them

An index is recorded twice: by a key of the keyspace and in a table of the
process.  Any command may touch the key; only three touch the table.
-/

namespace RedVector

open Util Effect Database Command VectorSearch

section

variable [Platform] [VectorPlatform]

namespace Command

/-! ## The ways in which the commands end -/

/-- The checked argument of FT.CREATE. -/
def createArguments (argv : Arguments) : Except Response Bytes := do
  validateArgumentsGte argv 2
  tryValidate (argv.getStr 1) "ERR invalid index name"

/-- The checked arguments of FT.ADD. -/
def addArguments (argv : Arguments) : Except Response (Bytes × Bytes) := do
  validateArgumentsGte argv 4
  let indexName ← tryValidate (argv.getStr 1) "ERR invalid index name"
  let docId ← tryValidate (argv.getStr 2) "ERR invalid document ID"
  let _ ← tryValidate (argv.getF64 3) "ERR invalid score"
  pure (indexName, docId)

/-- FT.CREATE finds a name that is not in use. -/
structure NamesNew (ft : FtEnv) (argv : Arguments) (dbindex : Nat)
    (state : FtState) : Prop where
  checked : (createArguments argv).isOk = true
  named : argv.getD 1 [] ≠ []
  absent : indexExists ft state dbindex (argv.getD 1 []) = false

/-- FT.ADD has a vector for an index that exists. -/
structure NamesKnown (ft : FtEnv) (argv : Arguments) (dbindex : Nat)
    (state : FtState) : Prop where
  checked : (addArguments argv).isOk = true
  present : indexExists ft state dbindex (argv.getD 1 []) = true
  vector : fieldsVector (argv.drop 4) ≠ none

omit [Platform] [VectorPlatform] in
theorem createArguments_name {argv : Arguments} {indexName : Bytes}
    (checked : createArguments argv = .ok indexName) :
    indexName = argv.getD 1 [] := by
  obtain ⟨_, -, named⟩ := bind_eq_ok checked
  exact getStr_eq_ok (tryValidate_eq_ok named)

omit [Platform] [VectorPlatform] in
theorem createArguments_refuses (argv : Arguments) :
    Refuses (createArguments argv) :=
  refuses_bind (refuses_gte argv 2) fun _ => refuses_tryValidate _ _

theorem ftCreate_cases {ft : FtEnv} {argv : Arguments} {dbindex : Nat}
    {state after : FtState} {reply : Response}
    (ran : ftCreate ft argv dbindex state = some (reply, after)) :
    (accepted reply = false ∧ after = state) ∨
    (reply = .ok ∧ NamesNew ft argv dbindex state ∧
      ∃ hasVector dimension value created,
        schema (argv.drop 2) = some (hasVector, dimension) ∧
        state.db.getOrCreate ft.env dbindex (indexMetaKey (argv.getD 1 [])) =
          some (value, created) ∧
        after.db = created.put dbindex (indexMetaKey (argv.getD 1 []))
          (.setString (text "dimension:" ++ natToString dimension)) ∧
        if hasVector then ∃ tables,
          after.indexStorage =
            state.indexStorage.insert (dbindex, argv.getD 1 [])
              (.new (argv.getD 1 []) dimension .cosine tables 1000)
        else after.indexStorage = state.indexStorage) := by
  unfold ftCreate at ran
  rw [show (do
      validateArgumentsGte argv 2
      tryValidate (argv.getStr 1) "ERR invalid index name" :
        Except Response Bytes) = createArguments argv from rfl] at ran
  split at ran
  · rename_i refused checked
    cases ran
    exact .inl ⟨createArguments_refuses argv reply checked, rfl⟩
  · rename_i indexName checked
    rw [createArguments_name checked] at ran
    split at ran
    · cases ran
      exact .inl ⟨rfl, rfl⟩
    · rename_i nonempty
      split at ran
      · cases ran
        exact .inl ⟨rfl, rfl⟩
      · rename_i absent
        obtain ⟨⟨hasVector, dimension⟩, isSchema, ran⟩ :=
          Option.bind_eq_some_iff.mp ran
        have isNew : NamesNew ft argv dbindex state := by
          constructor
          · rw [checked]
            rfl
          · simpa using nonempty
          · simpa using absent
        cases hasVector with
        | true =>
            simp only [if_true] at ran
            obtain ⟨between, isBetween, ran⟩ := Option.bind_eq_some_iff.mp ran
            obtain ⟨⟨index, other⟩, made, same⟩ :=
              Option.map_eq_some_iff.mp isBetween
            cases same
            obtain ⟨tables, -, new⟩ := Option.bind_eq_some_iff.mp made
            cases new
            obtain ⟨⟨value, created⟩, creates, ran⟩ :=
              Option.bind_eq_some_iff.mp ran
            cases ran
            exact .inr ⟨rfl, isNew, true, dimension, value, created, isSchema,
              creates, rfl, tables, rfl⟩
        | false =>
            simp only [Bool.false_eq_true, if_false] at ran
            obtain ⟨between, same, ran⟩ := Option.bind_eq_some_iff.mp ran
            cases same
            obtain ⟨⟨value, created⟩, creates, ran⟩ :=
              Option.bind_eq_some_iff.mp ran
            cases ran
            exact .inr ⟨rfl, isNew, false, dimension, value, created, isSchema,
              creates, rfl, rfl⟩

/-- FT.ADD changes something only for an index that exists. -/
theorem ftAdd_known {ft : FtEnv} {argv : Arguments} {dbindex : Nat}
    {state after : FtState} {reply : Response}
    (ran : ftAdd ft argv dbindex state = some (reply, after)) :
    after = state ∨ NamesKnown ft argv dbindex state := by
  unfold ftAdd at ran
  rw [show (do
      validateArgumentsGte argv 4
      let indexName ← tryValidate (argv.getStr 1) "ERR invalid index name"
      let docId ← tryValidate (argv.getStr 2) "ERR invalid document ID"
      let _ ← tryValidate (argv.getF64 3) "ERR invalid score"
      pure (indexName, docId) : Except Response (Bytes × Bytes)) =
        addArguments argv from rfl] at ran
  split at ran
  · cases ran
    exact .inl rfl
  · rename_i indexName docId checked
    have isName : indexName = argv.getD 1 [] := by
      obtain ⟨_, -, rest⟩ := bind_eq_ok checked
      obtain ⟨name, named, rest⟩ := bind_eq_ok rest
      obtain ⟨document, -, rest⟩ := bind_eq_ok rest
      obtain ⟨score, -, rest⟩ := bind_eq_ok rest
      cases rest
      exact getStr_eq_ok (tryValidate_eq_ok named)
    rw [isName] at ran
    split at ran
    · cases ran
      exact .inl rfl
    · rename_i present
      split at ran
      · cases ran
        exact .inl rfl
      · rename_i vector given
        refine .inr ⟨?_, by simpa using present, by rw [given]; exact nofun⟩
        rw [checked]
        rfl

theorem ftDrop_cases {ft : FtEnv} {argv : Arguments} {dbindex : Nat}
    {state after : FtState} {reply : Response}
    (ran : ftDrop ft argv dbindex state = some (reply, after)) :
    after = state ∨
    ∃ value, state.db.remove ft.env dbindex
        (indexMetaKey (argv.getD 1 [])) = some (value, after.db) ∧
      after.indexStorage =
        state.indexStorage.erase (dbindex, argv.getD 1 []) := by
  unfold ftDrop at ran
  rw [show (do
      validateArgumentsGte argv 2
      tryValidate (argv.getStr 1) "ERR invalid index name" :
        Except Response Bytes) = createArguments argv from rfl] at ran
  split at ran
  · cases ran
    exact .inl rfl
  · rename_i indexName checked
    rw [createArguments_name checked] at ran
    split at ran
    · cases ran
      exact .inl rfl
    · obtain ⟨⟨value, db⟩, removed, ran⟩ := Option.bind_eq_some_iff.mp ran
      cases ran
      exact .inr ⟨value, removed, rfl⟩

/-! ## The keys of the indexes -/

omit [Platform] [VectorPlatform] in
theorem indexMetaKey_inj {first second : Bytes}
    (same : indexMetaKey first = indexMetaKey second) : first = second :=
  List.append_cancel_left same

/-- The slot whose key names an index. -/
def metaSlot (index : Nat × Bytes) : Slot :=
  (index.1, indexMetaKey index.2)

omit [Platform] [VectorPlatform] in
theorem metaSlot_inj {first second : Nat × Bytes}
    (same : metaSlot first = metaSlot second) : first = second := by
  obtain ⟨sameIndex, sameKey⟩ := Prod.mk.inj same
  exact Prod.ext sameIndex (indexMetaKey_inj sameKey)

/-- The slots of the indexes in the table. -/
def metaSlots (indexStorage : IndexStorage) (slot : Slot) : Prop :=
  ∃ index ∈ indexStorage, metaSlot index = slot

/-- The numbers of these documents. -/
def numbersOf (documents : Finset Bytes) : Set DocId :=
  {number | ∃ document ∈ documents, documentNumber document = number}

/-- One more document of an index. -/
def Documents.adding (documents : Documents) (index : Nat × Bytes)
    (document : Bytes) : Documents :=
  Function.update documents index (insert document (documents index))

omit [Platform] [VectorPlatform] in
theorem Documents.mem_adding (documents : Documents) (index : Nat × Bytes)
    (document : Bytes) : document ∈ documents.adding index document index := by
  unfold Documents.adding
  rw [Function.update_self]
  exact Finset.mem_insert_self _ _

omit [Platform] [VectorPlatform] in
theorem Documents.numbersOf_adding (documents : Documents)
    (index : Nat × Bytes) (document : Bytes) (other : Nat × Bytes) :
    numbersOf (documents other) ⊆
      numbersOf (documents.adding index document other) := by
  rintro number ⟨known, member, rfl⟩
  refine ⟨known, ?_, rfl⟩
  unfold Documents.adding
  by_cases same : other = index
  · subst same
    rw [Function.update_self]
    exact Finset.mem_insert_of_mem member
  · rwa [Function.update_of_ne same]

end Command

/-! ## The server and its indexes -/

inductive FtCommand where
  | create
  | add
  | drop

/-- A command of the vector search that a client runs. -/
structure FtRequest where
  ft : FtEnv
  command : FtCommand
  client : Nat
  argv : Arguments

namespace FtRequest

def name (request : FtRequest) : Bytes :=
  request.argv.getD 1 []

def run (request : FtRequest) (dbindex : Nat) (state : FtState) :
    Option (Response × FtState) :=
  match request.command with
  | .create => ftCreate request.ft request.argv dbindex state
  | .add => ftAdd request.ft request.argv dbindex state
  | .drop => ftDrop request.ft request.argv dbindex state

/-- An index starts without documents; FT.ADD names one. -/
def record (request : FtRequest) (dbindex : Nat) (reply : Response)
    (added : Documents) : Documents :=
  let index := (dbindex, request.name)
  match request.command with
  | .create =>
      if accepted reply then Function.update added index ∅ else added
  | .add => added.adding index (request.argv.getD 2 [])
  | .drop => added

end FtRequest

/-- A server with its indexes, and with the documents that FT.ADD named for
each since the index was created. -/
structure FtServer where
  server : Server
  indexStorage : IndexStorage
  added : Documents

inductive FtEvent where
  | ft (request : FtRequest)
  | other (request : Request)

namespace FtServer

def start (config : Config) (aof : Option Bytes) : FtServer :=
  { server := .start config aof
    indexStorage := ∅
    added := fun _ => ∅ }

def state (before : FtServer) : FtState :=
  { db := before.server.db, indexStorage := before.indexStorage }

/-- The database that a client works on. -/
def dbindex (before : FtServer) (client : Nat) : Nat :=
  (before.server.clients client).dbindex

def step (before : FtServer) : FtEvent → Option FtServer
  | .ft request => do
      let dbindex := before.dbindex request.client
      let (reply, after) ← request.run dbindex before.state
      pure
        { server := { before.server with db := after.db }
          indexStorage := after.indexStorage
          added := request.record dbindex reply before.added }
  | .other request => do
      let (_, server) ← before.server.step request
      pure { before with server := server }

def Steps (allowed : FtEvent → FtServer → Prop) (before : FtServer)
    (event : FtEvent) (after : FtServer) : Prop :=
  allowed event before ∧ before.step event = some after

/-- What a search shows behind the number of results. -/
def shown : Response → List Response
  | .array (_ :: results) => results
  | _ => []

/-- The table and the keyspace agree on the indexes, and a search shows
documents that were added since the index was created. -/
structure Agrees (after : FtServer) : Prop where
  keys : ∀ index ∈ after.indexStorage, ∀ env,
    (after.server.db.get env index.1 (indexMetaKey index.2)).isSome
  searches : ∀ ft argv dbindex,
    ∀ result ∈ shown (ftSearch ft argv dbindex after.state),
      ∃ document ∈ after.added (dbindex, argv.getD 1 []), ∃ score,
        result = .array [.data (natToString (documentNumber document).toNat),
          .data (text "score"), .data score]

/-- No key of an index in the table is removed or evicted, gets an expiration,
or is updated while it is empty; and no index comes into the table while its
key has an expiration. -/
def Meets (event : FtEvent) (before : FtServer) : Prop :=
  let slots := metaSlots before.indexStorage
  match event with
  | .other request =>
      Each (CallsEach (Spares slots)) request.world request.command
        before.server.db (before.server.clients request.client)
  | .ft request =>
      let dbindex := before.dbindex request.client
      let slot := metaSlot (dbindex, request.name)
      match request.command with
      | .create => NamesNew request.ft request.argv dbindex before.state →
          EvictsOthers slots request.ft.env before.server.db slot.1 slot.2 ∧
          ((schema (request.argv.drop 2)).any Prod.fst = true →
            before.server.db.keptExpiration request.ft.env slot = none)
      | .add => NamesKnown request.ft request.argv dbindex before.state →
          (dbindex, request.name) ∉ before.indexStorage →
          before.server.db.expiration slot = none
      | .drop => True

/-! ## What every step keeps -/

/-- The keys of the indexes stay, and the indexes know documents that were
added. -/
structure Sound (after : FtServer) : Prop where
  lasting : Lasting (metaSlots after.indexStorage) after.server.db
  within : ∀ index persistent,
    after.indexStorage.lookup index = some persistent →
    persistent.index.backend.Within (numbersOf (after.added index))

theorem sound_start (config : Config) (aof : Option Bytes) :
    Sound (start config aof) := by
  constructor
  · rintro slot ⟨index, member, -⟩
    exact absurd member Finmap.notMem_empty
  · intro index persistent known
    cases known

section

variable {before : FtServer} {ft : FtEnv} {argv : Arguments}
  {dbindex : Nat} {after : FtState} {reply : Response}

/-- An index that is in the table exists. -/
theorem Sound.known (sound : Sound before) (ft : FtEnv)
    {index : Nat × Bytes} (member : index ∈ before.indexStorage) :
    indexExists ft before.state index.1 index.2 = true :=
  sound.lasting.get ⟨index, member, rfl⟩ ft.env

/-- FT.CREATE makes an index that was not in the table. -/
theorem Sound.create (sound : Sound before)
    (meets : NamesNew ft argv dbindex before.state →
      EvictsOthers (metaSlots before.indexStorage) ft.env before.server.db
        dbindex (indexMetaKey (argv.getD 1 [])) ∧
      ((schema (argv.drop 2)).any Prod.fst = true →
        before.server.db.keptExpiration ft.env
          (dbindex, indexMetaKey (argv.getD 1 [])) = none))
    (ran : ftCreate ft argv dbindex before.state = some (reply, after)) :
    Sound
      { server := { before.server with db := after.db }
        indexStorage := after.indexStorage
        added := if accepted reply then
          Function.update before.added (dbindex, argv.getD 1 []) ∅
        else before.added } := by
  rcases ftCreate_cases ran with ⟨refused, rfl⟩ |
    ⟨rfl, isNew, hasVector, dimension, value, created, isSchema, creates, isDb,
      storage⟩
  · rw [refused]
    exact sound
  obtain ⟨others, lasts⟩ := meets isNew
  have absent : (dbindex, argv.getD 1 []) ∉ before.indexStorage := by
    intro member
    have present := sound.known ft member
    rw [isNew.absent] at present
    cases present
  obtain ⟨-, made⟩ := getOrCreate_creates creates
  have kept : Lasting (metaSlots before.indexStorage) after.db := by
    rw [isDb]
    apply ((sound.lasting.getOrCreate_iff creates).mpr others |>.sets_iff
      (put_sets _ _ _ _)).mpr
    intro member
    have there := (sound.lasting.getOrCreate_iff creates).mpr others _ member
    exact ⟨Option.some_ne_none _, there.2⟩
  have within : ∀ index persistent,
      before.indexStorage.lookup index = some persistent →
      persistent.index.backend.Within (numbersOf
        (Function.update before.added (dbindex, argv.getD 1 []) ∅ index)) := by
    intro index persistent known
    have apart : index ≠ (dbindex, argv.getD 1 []) := by
      rintro rfl
      exact absent (Finmap.mem_iff.mpr ⟨persistent, known⟩)
    rw [Function.update_of_ne apart]
    exact sound.within index persistent known
  cases hasVector with
  | false =>
      change after.indexStorage = before.indexStorage at storage
      constructor
      · show Lasting (metaSlots after.indexStorage) after.db
        rw [storage]
        exact kept
      · show ∀ index persistent,
          after.indexStorage.lookup index = some persistent → _
        rw [storage]
        exact within
  | true =>
      obtain ⟨tables, storage⟩ := storage
      change after.indexStorage = before.indexStorage.insert _ _ at storage
      constructor
      · show Lasting (metaSlots after.indexStorage) after.db
        rw [storage]
        rintro slot ⟨index, member, rfl⟩
        obtain rfl | old := Finmap.mem_insert.mp member
        · have there := made.put (.setString
            (text "dimension:" ++ natToString dimension))
          rw [isDb]
          refine ⟨?_, there.expiration.trans (lasts (by rw [isSchema]; rfl))⟩
          exact there.value ▸ Option.some_ne_none _
        · exact kept _ ⟨index, old, rfl⟩
      · show ∀ index persistent,
          after.indexStorage.lookup index = some persistent → _
        rw [storage]
        intro index persistent known
        by_cases same : index = (dbindex, argv.getD 1 [])
        · subst same
          rw [Finmap.lookup_insert] at known
          cases known
          exact PersistentVectorIndex.new_within _ _ _ _ _
        · rw [Finmap.lookup_insert_of_ne _ same] at known
          exact within index persistent known

/-- FT.ADD makes a document known to one index, which it may make. -/
theorem Sound.add (sound : Sound before)
    (meets : NamesKnown ft argv dbindex before.state →
      (dbindex, argv.getD 1 []) ∉ before.indexStorage →
      before.server.db.expiration
        (dbindex, indexMetaKey (argv.getD 1 [])) = none)
    (ran : ftAdd ft argv dbindex before.state = some (reply, after)) :
    Sound
      { server := { before.server with db := after.db }
        indexStorage := after.indexStorage
        added := before.added.adding (dbindex, argv.getD 1 [])
          (argv.getD 2 []) } := by
  have stays : ∀ index persistent,
      before.indexStorage.lookup index = some persistent →
      persistent.index.backend.Within (numbersOf
        (before.added.adding (dbindex, argv.getD 1 []) (argv.getD 2 [])
          index)) :=
    fun index persistent known => (sound.within index persistent known).mono
      (Documents.numbersOf_adding _ _ _ index)
  have unchanged : after = before.state → Sound
      { server := { before.server with db := after.db }
        indexStorage := after.indexStorage
        added := before.added.adding (dbindex, argv.getD 1 [])
          (argv.getD 2 []) } := by
    rintro rfl
    exact ⟨sound.lasting, stays⟩
  rcases ftAdd_known ran with same | isKnown
  · exact unchanged same
  rcases ftAdd_cases ran with ⟨-, same⟩ | ⟨-, -, same⟩ |
    ⟨vector, index, -, found, sameDb, storage, -⟩
  · exact unchanged same
  · exact unchanged same
  change after.db = before.server.db at sameDb
  change after.indexStorage = before.indexStorage.insert _ _ at storage
  have lasts : before.server.db.value
        (dbindex, indexMetaKey (argv.getD 1 [])) ≠ none ∧
      before.server.db.expiration
        (dbindex, indexMetaKey (argv.getD 1 [])) = none := by
    by_cases member : (dbindex, argv.getD 1 []) ∈ before.indexStorage
    · exact sound.lasting _ ⟨_, member, rfl⟩
    · refine ⟨?_, meets isKnown member⟩
      intro gone
      have present := isKnown.present
      change (before.server.db.visible ft.env
        (dbindex, indexMetaKey (argv.getD 1 []))).isSome = true at present
      unfold Database.visible at present
      rw [gone] at present
      simp at present
  constructor
  · show Lasting (metaSlots after.indexStorage) after.db
    rw [storage, sameDb]
    rintro slot ⟨other, member, rfl⟩
    obtain rfl | old := Finmap.mem_insert.mp member
    · exact lasts
    · exact sound.lasting _ ⟨other, old, rfl⟩
  · show ∀ index persistent,
      after.indexStorage.lookup index = some persistent → _
    rw [storage]
    intro other persistent known
    by_cases same : other = (dbindex, argv.getD 1 [])
    · subst same
      rw [Finmap.lookup_insert] at known
      cases known
      apply PersistentVectorIndex.add_within
      · rcases found with old | ⟨-, tables, rfl⟩
        · exact stays _ _ old
        · exact PersistentVectorIndex.new_within _ _ _ _ _
      · exact ⟨argv.getD 2 [], Documents.mem_adding _ _ _, rfl⟩
    · rw [Finmap.lookup_insert_of_ne _ same] at known
      exact stays other persistent known

/-- FT.DROP takes the key and the index. -/
theorem Sound.drop (sound : Sound before)
    (ran : ftDrop ft argv dbindex before.state = some (reply, after)) :
    Sound
      { server := { before.server with db := after.db }
        indexStorage := after.indexStorage
        added := before.added } := by
  rcases ftDrop_cases ran with rfl | ⟨value, removed, storage⟩
  · exact sound
  obtain ⟨-, sets, -⟩ := remove_spec removed
  change after.indexStorage = before.indexStorage.erase _ at storage
  constructor
  · show Lasting (metaSlots after.indexStorage) after.db
    rw [storage]
    rintro slot ⟨index, member, rfl⟩
    obtain ⟨apart, member⟩ := Finmap.mem_erase.mp member
    have other : metaSlot index ≠
        (dbindex, indexMetaKey (argv.getD 1 [])) :=
      fun same => apart (metaSlot_inj same)
    rw [sets.value, sets.expiration, if_neg other, if_neg other]
    exact sound.lasting _ ⟨index, member, rfl⟩
  · show ∀ index persistent,
      after.indexStorage.lookup index = some persistent → _
    rw [storage]
    intro index persistent known
    by_cases same : index = (dbindex, argv.getD 1 [])
    · subst same
      rw [Finmap.lookup_erase] at known
      cases known
    · rw [Finmap.lookup_erase_ne same] at known
      exact sound.within index persistent known

end

theorem step_sound {before after : FtServer} {event : FtEvent}
    (sound : Sound before) (step : Steps Meets before event after) :
    Sound after := by
  obtain ⟨meets, stepped⟩ := step
  cases event with
  | other request =>
      obtain ⟨⟨answer, server⟩, ran, same⟩ :=
        Option.bind_eq_some_iff.mp stepped
      cases same
      obtain ⟨outcome, commandRan, -, rfl⟩ := Server.step_eq_some.mp ran
      have keeps : KeepsEach
          (CallsEach (Spares (metaSlots before.indexStorage)))
          fun db _ => Lasting (metaSlots before.indexStorage) db :=
        callsEach_keeps
          (asides_of_sameKeys fun same lasting =>
            lasting.congr same.value same.expiration)
          fun held spares performed =>
            (perform_lasting_iff held performed).mpr spares
      exact ⟨commandAt_keepsEach keeps sound.lasting meets commandRan,
        sound.within⟩
  | ft request =>
      obtain ⟨⟨reply, state⟩, ran, same⟩ := Option.bind_eq_some_iff.mp stepped
      cases same
      unfold FtRequest.run at ran
      unfold FtRequest.record
      unfold Meets at meets
      dsimp only at meets ⊢
      cases isCommand : request.command with
      | create =>
          rw [isCommand] at ran meets
          exact sound.create meets ran
      | add =>
          rw [isCommand] at ran meets
          exact sound.add meets ran
      | drop =>
          rw [isCommand] at ran
          exact sound.drop ran

theorem Sound.agrees {after : FtServer} (sound : Sound after) :
    Agrees after := by
  constructor
  · intro index member env
    exact sound.lasting.get ⟨index, member, rfl⟩ env
  · intro ft argv dbindex result member
    unfold ftSearch at member
    split at member
    · rename_i refused checked
      have isError : ∀ {check : Except Response (Bytes × Bytes)},
          Refuses check → check = .error refused → shown refused = [] := by
        intro check refuses failed
        have := refuses refused failed
        cases refused with
        | error => rfl
        | _ => cases this
      rw [isError ?_ checked] at member
      · cases member
      · refine refuses_bind (refuses_gte argv 3) fun _ => ?_
        refine refuses_bind (refuses_tryValidate _ _) fun _ => ?_
        exact refuses_bind (refuses_tryValidate _ _) fun _ => refuses_pure _
    · rename_i indexName query checked
      obtain ⟨_, -, checked⟩ := bind_eq_ok checked
      obtain ⟨name, named, checked⟩ := bind_eq_ok checked
      obtain ⟨_, -, checked⟩ := bind_eq_ok checked
      cases checked
      have isName := getStr_eq_ok (tryValidate_eq_ok named)
      split at member
      · cases member
      · split at member
        · cases member
        · dsimp only at member
          split at member
          · rename_i results found
            obtain ⟨persistent, known, found⟩ :=
              Option.bind_eq_some_iff.mp found
            obtain ⟨vector, -, found⟩ := Option.bind_eq_some_iff.mp found
            have searched : persistent.search ft.listing vector 10 =
                .ok results := by
              cases outcome : persistent.search ft.listing vector 10 with
              | error => rw [outcome] at found; cases found
              | ok others => rw [outcome] at found; cases found; rfl
            obtain ⟨⟨number, score⟩, inResults, rfl⟩ := List.mem_map.mp member
            have within := sound.within _ _ known
            obtain ⟨document, present, isNumber⟩ :=
              within.search searched _ inResults
            rw [isName] at present
            refine ⟨document, present, VectorPlatform.f32ToString score, ?_⟩
            rw [isNumber]
          · cases member

/-- In a run whose steps spare the keys of the indexes, the table and the
keyspace agree on the indexes in every state. -/
theorem run_agrees {config : Config} {aof : Option Bytes}
    {events : List FtEvent} {after : FtServer}
    (run : Runs (Steps Meets) (start config aof) events after) :
    Agrees after := by
  have sound : Sound after := by
    refine run.invariant Sound ?_ (sound_start config aof)
    intro before event after sound step
    exact step_sound sound step
  exact sound.agrees

end FtServer

end

/-! ## The key is deleted -/

section

attribute [local instance] Platform.integral VectorPlatform.integral

namespace FtServer

/-- Nothing is on disk, and a map that only has this number lists it. -/
noncomputable def listingOne (number : DocId) : FtEnv :=
  { FtEnv.still with
    listing :=
      { order := listed [number]
        order_nodup := listed_nodup (List.nodup_singleton number)
        mem_order := mem_listed [number] } }

noncomputable def ftEvent (command : FtCommand) (argv : Arguments) : FtEvent :=
  .ft { ft := .still, command := command, client := 0, argv := argv }

/-- An index of one number is created. -/
noncomputable def createVector : FtEvent :=
  ftEvent .create [text "FT.CREATE", text "i", text "SCHEMA", text "v",
    text "VECTOR(1)"]

/-- An index of the same name without a vector. -/
noncomputable def createText : FtEvent :=
  ftEvent .create [text "FT.CREATE", text "i", text "SCHEMA", text "t",
    text "TEXT"]

noncomputable def addVector : FtEvent :=
  ftEvent .add [text "FT.ADD", text "i", text "a", text "1", text "FIELDS",
    text "vector", text "1"]

noncomputable def deleteKey : FtEvent :=
  .other (.still 0 0 [text "DEL", text "ft:meta:i"] ⟨by decide, by decide⟩)

/-- Any steps one after the other. -/
noncomputable def play (before : FtServer) : List FtEvent → Option FtServer
  | [] => some before
  | event :: rest => (before.step event).bind fun between => between.play rest

theorem runs_of_play {before after : FtServer} {events : List FtEvent}
    (played : before.play events = some after) :
    Runs (Steps fun _ _ => True) before events after := by
  induction events generalizing before with
  | nil =>
      cases played
      exact .done _
  | cons event rest ih =>
      obtain ⟨between, stepped, played⟩ := Option.bind_eq_some_iff.mp played
      exact .next ⟨trivial, stepped⟩ (ih played)

/-- An index stays in the table when its key is deleted, and shows its old
documents under a new index of its name. -/
theorem agrees_fails :
    (¬∀ (config : Config) (aof : Option Bytes) (events : List FtEvent)
      (after : FtServer),
      Runs (Steps fun _ _ => True) (start config aof) events after →
      ∀ index ∈ after.indexStorage, ∀ env,
        (after.server.db.get env index.1 (indexMetaKey index.2)).isSome) ∧
    ¬∀ (config : Config) (aof : Option Bytes) (events : List FtEvent)
      (after : FtServer),
      Runs (Steps fun _ _ => True) (start config aof) events after →
      ∀ ft argv dbindex,
        ∀ result ∈ shown (ftSearch ft argv dbindex after.state),
          ∃ document ∈ after.added (dbindex, argv.getD 1 []), ∃ score,
            result = .array
              [.data (natToString (documentNumber document).toNat),
                .data (text "score"), .data score] := by
  constructor
  · intro keys
    have played : ((start {} none).play [createVector, deleteKey]).map
        (fun after => ((after.indexStorage.lookup (0, text "i")).isSome,
          (after.server.db.get (.still 0) 0
            (indexMetaKey (text "i"))).isSome)) = some (true, false) := by
      decide +kernel
    obtain ⟨after, played, seen⟩ := Option.map_eq_some_iff.mp played
    obtain ⟨present, absent⟩ := Prod.mk.inj seen
    have member : (0, text "i") ∈ after.indexStorage :=
      Finmap.lookup_isSome.mp present
    have found := keys {} none _ after (runs_of_play played) _ member (.still 0)
    cases found.symm.trans absent
  · intro searches
    have played : ((start {} none).play
        [createVector, addVector, deleteKey, createText]).map
        (fun after => ((shown (ftSearch
            (listingOne (documentNumber (text "a")))
            [text "FT.SEARCH", text "i", text "1"] 0 after.state)).length,
          after.added (0, text "i"))) = some (1, ∅) := by
      decide +kernel
    obtain ⟨after, played, seen⟩ := Option.map_eq_some_iff.mp played
    obtain ⟨one, none'⟩ := Prod.mk.inj seen
    obtain ⟨result, isResult⟩ := List.length_eq_one_iff.mp one
    obtain ⟨document, member, -⟩ := searches {} none _ after
      (runs_of_play played) (listingOne (documentNumber (text "a")))
      [text "FT.SEARCH", text "i", text "1"] 0
      result (isResult ▸ List.mem_singleton_self result)
    have nothing : after.added (0, [text "FT.SEARCH", text "i",
        text "1"].getD 1 []) = ∅ := none'
    rw [nothing] at member
    cases member

theorem createVector_meets : Meets createVector (start {} none) := by
  intro _
  constructor
  · rintro _ done after - slot ⟨index, member, -⟩
    exact absurd member Finmap.notMem_empty
  · intro _
    rfl

/-- An index that is created is in the table, and agrees with its key. -/
theorem run_agrees_created :
    ∃ after, Runs (Steps Meets) (start {} none) [createVector] after ∧
      (0, text "i") ∈ after.indexStorage ∧ Agrees after := by
  have stepped : ((start {} none).step createVector).map (fun after =>
      (after.indexStorage.lookup (0, text "i")).isSome) = some true := by
    decide +kernel
  obtain ⟨after, stepped, present⟩ := Option.map_eq_some_iff.mp stepped
  have run : Runs (Steps Meets) (start {} none) [createVector] after :=
    .next ⟨createVector_meets, stepped⟩ (.done after)
  exact ⟨after, run, Finmap.lookup_isSome.mp present, run_agrees run⟩

end FtServer

end

end RedVector
