import RedVector.Command.Ft
import RedVector.Command.Specs

/-!
# The documents of an index

FT.ADD and FT.DEL change one document each as long as the index can tell its
document from the others by their numbers, and counts only what changes.
-/

namespace RedVector.Command

open Effect Util VectorSearch

section

variable [Platform] [VectorPlatform]

inductive DocumentCommand where
  | add
  | del

/-- A command on a document, and what it finds when it is executed. -/
structure DocumentRequest where
  ft : FtEnv
  command : DocumentCommand
  argv : Arguments
  dbindex : Nat

/-- The documents of each index. -/
abbrev Documents := Nat × Bytes → Finset Bytes

namespace DocumentRequest

/-- The index of a request. -/
def index (request : DocumentRequest) : Nat × Bytes :=
  (request.dbindex, request.argv.getD 1 [])

/-- The document of a request. -/
def document (request : DocumentRequest) : Bytes :=
  request.argv.getD 2 []

def vector (request : DocumentRequest) : Option Vector32 :=
  fieldsVector (request.argv.drop 4)

def run (request : DocumentRequest) (state : FtState) :
    Option (Response × FtState) :=
  match request.command with
  | .add => ftAdd request.ft request.argv request.dbindex state
  | .del => ftDel request.ft request.argv request.dbindex state

end DocumentRequest

def accepted : Response → Bool
  | .error _ => false
  | _ => true

/-- A document is present once a command has added it, until one deletes
it. -/
def recorded (request : DocumentRequest) (reply : Response)
    (documents : Documents) : Documents :=
  if accepted reply then
    let present := documents request.index
    Function.update documents request.index
      (match request.command with
        | .add => insert request.document present
        | .del => present.erase request.document)
  else documents

/-- The state of the search and the documents that should be there. -/
structure Catalogue where
  state : FtState
  documents : Documents

namespace Catalogue

/-- The vector that an index has for a document. -/
def vectorOf (catalogue : Catalogue) (index : Nat × Bytes)
    (document : Bytes) : Option Vector32 :=
  match catalogue.state.indexStorage.lookup index with
  | none => none
  | some persistent =>
      match persistent.index.backend with
      | .linear scan => scan.vectors.lookup (documentNumber document)
      | .hnsw _ => none

/-- The index of the request is below its threshold. -/
def Below (request : DocumentRequest) (catalogue : Catalogue) : Prop :=
  ∀ persistent,
    catalogue.state.indexStorage.lookup request.index = some persistent →
    persistent.index.len < persistent.index.hnswThreshold

/-- A request adds a vector under a new number, and its storage does not fail;
or it deletes a document that is present, if there is an index at all. -/
def Meets (request : DocumentRequest) (catalogue : Catalogue) : Prop :=
  match request.command with
  | .add => request.vector ≠ none ∧ request.ft.storeFailure = none ∧
      request.ft.snapshotFailure = none ∧
      ∀ other ∈ catalogue.documents request.index,
        documentNumber other ≠ documentNumber request.document
  | .del => request.document ∈ catalogue.documents request.index ∨
      catalogue.state.indexStorage.lookup request.index = none

/-- A request that is executed with this reply. -/
def Step (request : DocumentRequest) (before : Catalogue) (reply : Response)
    (after : Catalogue) : Prop :=
  request.run before.state = some (reply, after.state) ∧
    after.documents = recorded request reply before.documents

def Steps (allowed : DocumentRequest → Catalogue → Prop)
    (before : Catalogue) (request : DocumentRequest) (after : Catalogue) :
    Prop :=
  Below request before ∧ allowed request before ∧
    ∃ reply, Step request before reply after

/-- What a request does to the documents. -/
structure Changes (request : DocumentRequest) (before : Catalogue)
    (reply : Response) (after : Catalogue) : Prop where
  deleted : request.command = .del → accepted reply = true →
    reply = bit (decide (request.document ∈
      before.documents request.index))
  removed : request.command = .del → accepted reply = true →
    after.vectorOf request.index request.document = none
  added : request.command = .add → accepted reply = true →
    after.vectorOf request.index request.document = request.vector
  others : ∀ index document, document ∈ before.documents index →
    (index, document) ≠ (request.index, request.document) →
    after.vectorOf index document = before.vectorOf index document

/-- FT.INFO counts the documents. -/
def Counts (catalogue : Catalogue) : Prop :=
  ∀ ft word dbindex name, isUtf8 name = true →
    indexExists ft catalogue.state dbindex name = true →
    ftInfo ft [word, name] dbindex catalogue.state =
      .array [.data (text "index_name"), .data name,
        .data (text "num_docs"),
        .data (Util.natToString (catalogue.documents (dbindex, name)).card),
        .data (text "index_definition"), .array []]

end Catalogue

/-! ## What an index has of its documents -/

/-- An index has these documents, each under its own number. -/
structure Lists (persistent : PersistentVectorIndex)
    (documents : Finset Bytes) (scan : LinearScanIndex) : Prop where
  backend : persistent.index.backend = .linear scan
  numbers : ∀ number, number ∈ scan.vectors ↔
    ∃ document ∈ documents, documentNumber document = number
  apart : ∀ first ∈ documents, ∀ second ∈ documents,
    documentNumber first = documentNumber second → first = second
  size : persistent.index.size = documents.card

/-- Every index has its documents. -/
def Catalogue.Listed (catalogue : Catalogue) : Prop :=
  ∀ index,
    match catalogue.state.indexStorage.lookup index with
    | none => catalogue.documents index = ∅
    | some persistent =>
        ∃ scan, Lists persistent (catalogue.documents index) scan

omit [Platform] [VectorPlatform] in
theorem bind_eq_ok {ε α β : Type} {first : Except ε α}
    {rest : α → Except ε β} {value : β}
    (bound : first >>= rest = .ok value) :
    ∃ between, first = .ok between ∧ rest between = .ok value := by
  cases first with
  | error error => cases bound
  | ok between => exact ⟨between, rfl, bound⟩

omit [Platform] [VectorPlatform] in
theorem getStr_eq_ok {argv : Arguments} {pos : Nat} {argument : Bytes}
    (given : argv.getStr pos = .ok argument) :
    argument = argv.getD pos [] := by
  obtain ⟨data, read, valid⟩ := bind_eq_ok given
  split at valid
  · cases valid
    unfold Arguments.getVec at read
    split at read
    · rename_i found present
      cases read
      simp [List.getD, present]
    · cases read
  · cases valid

/-- A check that fails with an error. -/
def Refuses {α : Type} (check : Except Response α) : Prop :=
  ∀ reply, check = .error reply → accepted reply = false

omit [Platform] [VectorPlatform] in
theorem refuses_bind {α β : Type} {first : Except Response α}
    {rest : α → Except Response β} (refuses : Refuses first)
    (others : ∀ value, Refuses (rest value)) :
    Refuses (first >>= rest) := by
  intro reply failed
  cases first with
  | error _ =>
      cases failed
      exact refuses reply rfl
  | ok value => exact others value reply failed

omit [Platform] [VectorPlatform] in
theorem refuses_pure {α : Type} (value : α) :
    Refuses (pure value : Except Response α) := by
  intro reply failed
  cases failed

omit [Platform] [VectorPlatform] in
theorem refuses_gte (argv : Arguments) (expected : Nat) :
    Refuses (validateArgumentsGte argv expected) := by
  intro reply failed
  unfold validateArgumentsGte at failed
  split at failed
  · cases failed
    rfl
  · cases failed

omit [Platform] [VectorPlatform] in
theorem refuses_tryValidate {ε α : Type} (read : Except ε α)
    (message : String) : Refuses (tryValidate read message) := by
  intro reply failed
  cases read with
  | ok value => cases failed
  | error error =>
      cases failed
      rfl

/-- The ways in which FT.ADD ends. -/
theorem ftAdd_cases {ft : FtEnv} {argv : Arguments} {dbindex : Nat}
    {state after : FtState} {reply : Response}
    (ran : ftAdd ft argv dbindex state = some (reply, after)) :
    (accepted reply = false ∧ after = state) ∨
    (reply = .ok ∧ fieldsVector (argv.drop 4) = none ∧ after = state) ∨
    ∃ vector index, fieldsVector (argv.drop 4) = some vector ∧
      (state.indexStorage.lookup (dbindex, argv.getD 1 []) = some index ∨
        (state.indexStorage.lookup (dbindex, argv.getD 1 []) = none ∧
          ∃ tables, index = .new (argv.getD 1 []) vector.length .cosine tables
            1000)) ∧
      after.db = state.db ∧
      after.indexStorage =
        state.indexStorage.insert (dbindex, argv.getD 1 [])
          (index.add ft.storeFailure ft.snapshotFailure
            (documentNumber (argv.getD 2 [])) vector).2 ∧
      (accepted reply = true ↔
        (index.add ft.storeFailure ft.snapshotFailure
          (documentNumber (argv.getD 2 [])) vector).1 = .ok ()) := by
  unfold ftAdd at ran
  split at ran
  · rename_i refused checked
    cases ran
    refine .inl ⟨?_, rfl⟩
    refine refuses_bind (refuses_gte argv 4) ?_ reply checked
    intro _
    refine refuses_bind (refuses_tryValidate _ _) ?_
    intro _
    refine refuses_bind (refuses_tryValidate _ _) ?_
    intro _
    refine refuses_bind (refuses_tryValidate _ _) ?_
    exact fun _ => refuses_pure _
  · rename_i indexName docId checked
    obtain ⟨_, -, checked⟩ := bind_eq_ok checked
    obtain ⟨name, named, checked⟩ := bind_eq_ok checked
    obtain ⟨document, given, checked⟩ := bind_eq_ok checked
    obtain ⟨score, -, checked⟩ := bind_eq_ok checked
    cases checked
    have isName := getStr_eq_ok (tryValidate_eq_ok named)
    have isDocument := getStr_eq_ok (tryValidate_eq_ok given)
    rw [isName, isDocument] at ran
    split at ran
    · cases ran
      exact .inl ⟨rfl, rfl⟩
    · cases given : fieldsVector (argv.drop 4) with
      | none =>
          rw [given] at ran
          cases ran
          exact .inr (.inl ⟨rfl, rfl, rfl⟩)
      | some vector =>
          rw [given] at ran
          refine .inr (.inr ⟨vector, ?_⟩)
          obtain ⟨⟨index, between⟩, found, ran⟩ :=
            Option.bind_eq_some_iff.mp ran
          have isIndex : (state.indexStorage.lookup
              (dbindex, argv.getD 1 []) = some index ∧ between = state) ∨
              (state.indexStorage.lookup (dbindex, argv.getD 1 []) = none ∧
                ∃ tables, index = .new (argv.getD 1 []) vector.length .cosine
                  tables 1000 ∧
                between = setIndex state dbindex (argv.getD 1 []) index) := by
            unfold getOrCreateIndex getIndex at found
            split at found
            · rename_i known isKnown
              cases found
              exact .inl ⟨isKnown, rfl⟩
            · rename_i isNew
              obtain ⟨tables, -, created⟩ := Option.bind_eq_some_iff.mp found
              cases created
              exact .inr ⟨isNew, tables, rfl, rfl⟩
          have stored : between.db = state.db ∧
              ∀ persistent, between.indexStorage.insert
                  (dbindex, argv.getD 1 []) persistent =
                state.indexStorage.insert (dbindex, argv.getD 1 [])
                  persistent := by
            rcases isIndex with ⟨-, rfl⟩ | ⟨-, tables, -, rfl⟩
            · exact ⟨rfl, fun _ => rfl⟩
            · exact ⟨rfl, fun _ => Finmap.insert_insert _⟩
          refine ⟨index, rfl, ?_, ?_⟩
          · rcases isIndex with ⟨known, -⟩ | ⟨isNew, tables, isIndex, -⟩
            · exact .inl known
            · exact .inr ⟨isNew, tables, isIndex⟩
          · dsimp only at ran
            generalize index.add ft.storeFailure ft.snapshotFailure
              (documentNumber (argv.getD 2 [])) vector = result at ran ⊢
            obtain ⟨added, changed⟩ := result
            cases ran
            refine ⟨stored.1, stored.2 _, ?_⟩
            cases added with
            | error error => simp [accepted]
            | ok => simp [accepted, Response.ok]

/-- The ways in which FT.DEL ends. -/
theorem ftDel_cases {ft : FtEnv} {argv : Arguments} {dbindex : Nat}
    {state after : FtState} {reply : Response}
    (ran : ftDel ft argv dbindex state = some (reply, after)) :
    (accepted reply = false ∧ after = state) ∨
    (reply = bit false ∧
      state.indexStorage.lookup (dbindex, argv.getD 1 []) = none ∧
      after.indexStorage = state.indexStorage) ∨
    ∃ index,
      state.indexStorage.lookup (dbindex, argv.getD 1 []) = some index ∧
      reply = bit true ∧
      after.indexStorage =
        state.indexStorage.insert (dbindex, argv.getD 1 [])
          (index.remove (documentNumber (argv.getD 2 []))).2 := by
  unfold ftDel at ran
  split at ran
  · rename_i refused checked
    cases ran
    refine .inl ⟨?_, rfl⟩
    refine refuses_bind (refuses_gte argv 3) ?_ reply checked
    intro _
    refine refuses_bind (refuses_tryValidate _ _) ?_
    intro _
    refine refuses_bind (refuses_tryValidate _ _) ?_
    exact fun _ => refuses_pure _
  · rename_i indexName docId checked
    obtain ⟨_, -, checked⟩ := bind_eq_ok checked
    obtain ⟨name, named, checked⟩ := bind_eq_ok checked
    obtain ⟨document, given, checked⟩ := bind_eq_ok checked
    cases checked
    have isName := getStr_eq_ok (tryValidate_eq_ok named)
    have isDocument := getStr_eq_ok (tryValidate_eq_ok given)
    rw [isName, isDocument] at ran
    split at ran
    · cases ran
      exact .inl ⟨rfl, rfl⟩
    · have kept : reply = bit (removeDocument state dbindex
            (argv.getD 1 []) (argv.getD 2 [])).1 ∧
          after.indexStorage = (removeDocument state dbindex
            (argv.getD 1 []) (argv.getD 2 [])).2.indexStorage := by
        dsimp only at ran
        split at ran
        · obtain ⟨⟨value, db⟩, -, ran⟩ := Option.bind_eq_some_iff.mp ran
          cases ran
          exact ⟨rfl, rfl⟩
        · cases ran
          exact ⟨rfl, rfl⟩
      unfold removeDocument getIndex at kept
      cases known : state.indexStorage.lookup (dbindex, argv.getD 1 []) with
      | none =>
          rw [known] at kept
          exact .inr (.inl ⟨kept.1, rfl, kept.2⟩)
      | some index =>
          rw [known] at kept
          exact .inr (.inr ⟨index, rfl, kept.1, kept.2⟩)

namespace Lists

variable {persistent : PersistentVectorIndex} {documents : Finset Bytes}
  {scan : LinearScanIndex}

omit [Platform] in
/-- A new index has no documents, whatever its tables hold. -/
theorem new (indexName : Bytes) (dimension : Nat) (metric : VectorMetric)
    (tables : Tables) (interval : Nat) :
    ∃ scan, Lists
      (.new indexName dimension metric tables interval) ∅ scan := by
  have empty : ∀ number : DocId,
      number ∈ (∅ : HashMap DocId Vector32) ↔
        ∃ document ∈ (∅ : Finset Bytes), documentNumber document = number := by
    intro number
    refine iff_of_false Finmap.notMem_empty ?_
    rintro ⟨document, none, -⟩
    cases none
  obtain ⟨openedDimension, openedMetric, isOpened, -, -⟩ :=
    PersistentVectorIndex.new_index indexName dimension metric tables interval
  refine ⟨.new openedDimension openedMetric, ?_, empty, by simp, ?_⟩
  · rw [isOpened]
    rfl
  · rw [isOpened]
    rfl

omit [Platform] in
/-- What an addition to a linear scan below the threshold does. -/
theorem add_linear (lists : Lists persistent documents scan)
    (below : persistent.index.len < persistent.index.hnswThreshold)
    (docId : DocId) (vector : Vector32) :
    persistent.index.add docId vector =
      if vector.length = scan.dimension then
        (.ok (), { persistent.index with
          backend := .linear { scan with
            vectors := scan.vectors.insert docId vector }
          size := persistent.index.size + 1 })
      else (.error (dimensionMismatch (text "Vector") scan.dimension
        vector.length), persistent.index) := by
  have stays : persistent.index.migrates = false := by
    unfold VectorIndex.len at below
    simp [VectorIndex.migrates, below]
  by_cases fits : vector.length = scan.dimension
  · simp [VectorIndex.add, stays, lists.backend, VectorIndexBackend.add,
      LinearScanIndex.add, fits, Except.map]
  · simp [VectorIndex.add, stays, lists.backend, VectorIndexBackend.add,
      LinearScanIndex.add, fits, Except.map]

omit [Platform] in
/-- The documents depend on the index in memory only. -/
theorem congr (lists : Lists persistent documents scan)
    {after : PersistentVectorIndex} (same : after.index = persistent.index) :
    Lists after documents scan := by
  constructor
  · rw [same]
    exact lists.backend
  · exact lists.numbers
  · exact lists.apart
  · rw [same]
    exact lists.size

omit [Platform] in
/-- A document with a number of its own is added. -/
theorem add (lists : Lists persistent documents scan) {document : Bytes}
    (vector : Vector32)
    (apart : ∀ other ∈ documents,
      documentNumber other ≠ documentNumber document)
    {after : PersistentVectorIndex}
    (index : after.index = { persistent.index with
      backend := .linear { scan with
        vectors := scan.vectors.insert (documentNumber document) vector }
      size := persistent.index.size + 1 }) :
    Lists after (insert document documents)
      { scan with
        vectors := scan.vectors.insert (documentNumber document) vector } := by
  have absent : document ∉ documents :=
    fun present => apart document present rfl
  constructor
  · rw [index]
  · intro number
    rw [Finmap.mem_insert, lists.numbers]
    simp only [Finset.mem_insert, exists_eq_or_imp]
    exact or_congr_left eq_comm
  · intro first member second other same
    rcases Finset.mem_insert.mp member with rfl | old
    · rcases Finset.mem_insert.mp other with rfl | older
      · rfl
      · exact absurd same.symm (apart second older)
    · rcases Finset.mem_insert.mp other with rfl | older
      · exact absurd same (apart first old)
      · exact lists.apart first old second older same
  · rw [index, Finset.card_insert_of_notMem absent]
    exact congrArg (· + 1) lists.size

omit [Platform] in
/-- A document that is present is removed. -/
theorem remove (lists : Lists persistent documents scan) {document : Bytes}
    (present : document ∈ documents) :
    Lists (persistent.remove (documentNumber document)).2
      (documents.erase document)
      (scan.remove (documentNumber document)) := by
  have index : (persistent.remove (documentNumber document)).2.index =
      (persistent.index.remove (documentNumber document)).2 := rfl
  constructor
  · rw [index]
    simp [VectorIndex.remove, lists.backend, VectorIndexBackend.remove]
  · intro number
    change number ∈ scan.vectors.erase (documentNumber document) ↔ _
    rw [Finmap.mem_erase, lists.numbers]
    constructor
    · rintro ⟨different, other, member, same⟩
      refine ⟨other, Finset.mem_erase.mpr ⟨?_, member⟩, same⟩
      intro isDocument
      rw [isDocument] at same
      exact different same.symm
    · rintro ⟨other, member, same⟩
      obtain ⟨different, member⟩ := Finset.mem_erase.mp member
      refine ⟨?_, other, member, same⟩
      intro isNumber
      exact different (lists.apart other member document present
        (same.trans isNumber))
  · intro first member second other same
    exact lists.apart first (Finset.mem_of_mem_erase member) second
      (Finset.mem_of_mem_erase other) same
  · rw [index, Finset.card_erase_of_mem present, ← lists.size]
    rfl

end Lists

namespace Catalogue

/-- Every index holds no documents yet. -/
def Fresh (state : FtState) : Prop :=
  ∀ index persistent, state.indexStorage.lookup index = some persistent →
    ∃ indexName dimension metric tables interval,
      persistent = .new indexName dimension metric tables interval

/-- The catalogue of a state without documents. -/
def empty (state : FtState) : Catalogue :=
  { state := state, documents := fun _ => ∅ }

theorem listed_empty {state : FtState} (fresh : Fresh state) :
    (empty state).Listed := by
  intro index
  cases known : (empty state).state.indexStorage.lookup index with
  | none => rfl
  | some persistent =>
      obtain ⟨indexName, dimension, metric, tables, interval, rfl⟩ :=
        fresh index persistent known
      exact Lists.new indexName dimension metric tables interval

/-- An index that is listed answers for its documents. -/
theorem vectorOf_listed {catalogue : Catalogue} {index : Nat × Bytes}
    {persistent : PersistentVectorIndex} {documents : Finset Bytes}
    {scan : LinearScanIndex} (lists : Lists persistent documents scan)
    (known : catalogue.state.indexStorage.lookup index = some persistent)
    (document : Bytes) :
    catalogue.vectorOf index document =
      scan.vectors.lookup (documentNumber document) := by
  unfold vectorOf
  rw [known]
  dsimp only
  rw [lists.backend]

/-- Another index answers as before. -/
theorem vectorOf_same {before after : Catalogue} {index : Nat × Bytes}
    (same : after.state.indexStorage.lookup index =
      before.state.indexStorage.lookup index) (document : Bytes) :
    after.vectorOf index document = before.vectorOf index document := by
  unfold vectorOf
  rw [same]

/-- One index after another changes. -/
theorem listed_insert {before after : Catalogue} (listed : before.Listed)
    {index : Nat × Bytes} {persistent : PersistentVectorIndex}
    {documents : Finset Bytes} {scan : LinearScanIndex}
    (lists : Lists persistent documents scan)
    (storage : after.state.indexStorage =
      before.state.indexStorage.insert index persistent)
    (present : after.documents =
      Function.update before.documents index documents) :
    after.Listed ∧
      (∀ document, after.vectorOf index document =
        scan.vectors.lookup (documentNumber document)) ∧
      ∀ other document, other ≠ index →
        after.vectorOf other document = before.vectorOf other document := by
  have known : after.state.indexStorage.lookup index = some persistent := by
    rw [storage, Finmap.lookup_insert]
  have others : ∀ other, other ≠ index →
      after.state.indexStorage.lookup other =
        before.state.indexStorage.lookup other := by
    intro other different
    rw [storage, Finmap.lookup_insert_of_ne _ different]
  refine ⟨?_, vectorOf_listed lists known, ?_⟩
  · intro other
    by_cases same : other = index
    · rw [same, known, present, Function.update_self]
      exact ⟨scan, lists⟩
    · rw [others other same, present, Function.update_of_ne same]
      exact listed other
  · exact fun other document different =>
      vectorOf_same (others other different) document

/-- A request that is refused changes nothing. -/
theorem changes_refused {request : DocumentRequest}
    {before after : Catalogue} {reply : Response} (listed : before.Listed)
    (refused : accepted reply = false) (state : after.state = before.state)
    (documents : after.documents =
      recorded request reply before.documents) :
    after.Listed ∧ Changes request before reply after := by
  have same : after = before := by
    obtain ⟨afterState, afterDocuments⟩ := after
    rw [recorded, if_neg (by rw [refused]; decide)] at documents
    cases state
    cases documents
    rfl
  rw [same]
  have never : accepted reply ≠ true := by
    rw [refused]
    decide
  exact ⟨listed, fun _ answered => absurd answered never,
    fun _ answered => absurd answered never,
    fun _ answered => absurd answered never, fun _ _ _ _ => rfl⟩

theorem add_changes {request : DocumentRequest} {before after : Catalogue}
    {reply : Response} (isAdd : request.command = .add)
    (listed : before.Listed) (below : Below request before)
    (meets : Meets request before) (step : Step request before reply after) :
    after.Listed ∧ Changes request before reply after := by
  obtain ⟨ran, documents⟩ := step
  unfold Meets at meets
  rw [isAdd] at meets
  obtain ⟨hasVector, storeFailure, snapshotFailure, apart⟩ := meets
  unfold DocumentRequest.run at ran
  rw [isAdd] at ran
  rcases ftAdd_cases ran with ⟨refused, state⟩ | ⟨-, noVector, -⟩ |
    ⟨vector, index, isVector, known, -, storage, answer⟩
  · exact changes_refused listed refused state documents
  · exact absurd noVector hasVector
  · rw [storeFailure, snapshotFailure] at storage answer
    change after.state.indexStorage = before.state.indexStorage.insert
      request.index (index.add none none (documentNumber request.document)
        vector).2 at storage
    change accepted reply = true ↔ (index.add none none
      (documentNumber request.document) vector).1 = .ok () at answer
    obtain ⟨scan, lists, room, was⟩ : ∃ scan,
        Lists index (before.documents request.index) scan ∧
        index.index.len < index.index.hnswThreshold ∧
        ∀ document ∈ before.documents request.index,
          before.vectorOf request.index document =
            scan.vectors.lookup (documentNumber document) := by
      have here := listed request.index
      rcases known with known | ⟨isNew, tables, rfl⟩
      · have known : before.state.indexStorage.lookup request.index =
            some index := known
        rw [known] at here
        obtain ⟨scan, lists⟩ := here
        exact ⟨scan, lists, below index known,
          fun document _ => vectorOf_listed lists known document⟩
      · have isNew : before.state.indexStorage.lookup request.index =
            none := isNew
        rw [isNew] at here
        dsimp only at here
        rw [here]
        obtain ⟨scan, lists⟩ := Lists.new (request.argv.getD 1 [])
          vector.length .cosine tables 1000
        refine ⟨scan, lists, ?_, ?_⟩
        · obtain ⟨_, _, isOpened, -, -⟩ := PersistentVectorIndex.new_index
            (request.argv.getD 1 []) vector.length .cosine tables 1000
          rw [isOpened]
          exact Nat.zero_lt_succ 9999
        · intro document none
          cases none
    obtain ⟨answered, changed⟩ := index.add_index
      (documentNumber request.document) vector
    rw [lists.add_linear room] at answered changed
    rw [answered] at answer
    by_cases fits : vector.length = scan.dimension
    · rw [if_pos fits] at answer changed
      have accepts : accepted reply = true := answer.mpr rfl
      have lists := lists.add vector apart changed
      rw [recorded, if_pos accepts, isAdd] at documents
      obtain ⟨listed, here, others⟩ :=
        listed_insert listed lists storage documents
      refine ⟨listed, ?_, ?_, ?_, ?_⟩
      · intro isDel
        cases isAdd.symm.trans isDel
      · intro isDel
        cases isAdd.symm.trans isDel
      · intro _ _
        rw [here, Finmap.lookup_insert]
        exact isVector.symm
      · intro other document present different
        by_cases same : other = request.index
        · rw [same] at present different ⊢
          rw [here, was document present]
          exact Finmap.lookup_insert_of_ne _ (apart document present)
        · exact others other document same
    · rw [if_neg fits] at answer changed
      have refuses : accepted reply = false :=
        Bool.eq_false_iff.mpr fun accepts => by cases answer.mp accepts
      have never : accepted reply ≠ true := by
        rw [refuses]
        decide
      have present : after.documents = Function.update before.documents
          request.index (before.documents request.index) := by
        rw [documents, recorded, if_neg never, Function.update_eq_self]
      obtain ⟨listed, here, others⟩ :=
        listed_insert listed (lists.congr changed) storage present
      refine ⟨listed, fun _ answered => absurd answered never,
        fun _ answered => absurd answered never,
        fun _ answered => absurd answered never, ?_⟩
      intro other document present different
      by_cases same : other = request.index
      · rw [same] at present ⊢
        rw [here, was document present]
      · exact others other document same

theorem del_changes {request : DocumentRequest} {before after : Catalogue}
    {reply : Response} (isDel : request.command = .del)
    (listed : before.Listed) (meets : Meets request before)
    (step : Step request before reply after) :
    after.Listed ∧ Changes request before reply after := by
  obtain ⟨ran, documents⟩ := step
  unfold Meets at meets
  rw [isDel] at meets
  unfold DocumentRequest.run at ran
  rw [isDel] at ran
  have here := listed request.index
  have isAdd : request.command ≠ .add := by
    rw [isDel]
    exact nofun
  rcases ftDel_cases ran with ⟨refused, state⟩ | ⟨isReply, unknown, storage⟩ |
    ⟨index, known, isReply, storage⟩
  · exact changes_refused listed refused state documents
  · have unknown : before.state.indexStorage.lookup request.index =
        none := unknown
    rw [unknown] at here
    dsimp only at here
    have same : after.documents = before.documents := by
      have accepts : accepted (bit false) = true := rfl
      rw [documents, isReply, recorded, if_pos accepts, isDel, here]
      exact (congrArg (Function.update before.documents request.index)
        here.symm).trans (Function.update_eq_self _ _)
    have lookups : ∀ other, after.state.indexStorage.lookup other =
        before.state.indexStorage.lookup other := by
      intro other
      rw [storage]
    refine ⟨?_, ?_, ?_, fun adds => absurd adds isAdd, ?_⟩
    · intro other
      rw [lookups, same]
      exact listed other
    · intro _ _
      rw [isReply, here]
      rfl
    · intro _ _
      rw [vectorOf_same (lookups request.index)]
      unfold vectorOf
      rw [unknown]
    · exact fun other document _ _ => vectorOf_same (lookups other) document
  · have known : before.state.indexStorage.lookup request.index =
        some index := known
    rw [known] at here
    obtain ⟨scan, lists⟩ := here
    have present : request.document ∈ before.documents request.index := by
      rcases meets with present | unknown
      · exact present
      · cases known.symm.trans unknown
    change after.state.indexStorage = before.state.indexStorage.insert
      request.index (index.remove (documentNumber request.document)).2
      at storage
    have removed := lists.remove present
    have accepts : accepted (bit true) = true := rfl
    rw [recorded, isReply, if_pos accepts, isDel] at documents
    obtain ⟨listed, here, others⟩ :=
      listed_insert listed removed storage documents
    refine ⟨listed, ?_, ?_, fun adds => absurd adds isAdd, ?_⟩
    · intro _ _
      rw [isReply]
      simp [present]
    · intro _ _
      rw [here]
      exact Finmap.lookup_erase _ _
    · intro other document isPresent different
      by_cases same : other = request.index
      · rw [same] at isPresent different ⊢
        rw [here, vectorOf_listed lists known]
        refine Finmap.lookup_erase_ne ?_
        intro sameNumber
        have isDocument := lists.apart document isPresent request.document
          present sameNumber
        rw [isDocument] at different
        exact different rfl
      · exact others other document same

/-- A request that is as it should be changes its document only. -/
theorem step_changes {request : DocumentRequest} {before after : Catalogue}
    {reply : Response} (listed : before.Listed)
    (below : Below request before) (meets : Meets request before)
    (step : Step request before reply after) :
    after.Listed ∧ Changes request before reply after := by
  cases isCommand : request.command with
  | add => exact add_changes isCommand listed below meets step
  | del => exact del_changes isCommand listed meets step

/-- FT.INFO counts the documents that are listed. -/
theorem listed_counts {catalogue : Catalogue} (listed : catalogue.Listed) :
    catalogue.Counts := by
  intro ft word dbindex name isText isThere
  have named : (do
      validateArgumentsExact [word, name] 2
      tryValidate (Arguments.getStr [word, name] 1)
        "ERR invalid index name" : Except Response Bytes) = .ok name := by
    simp [validateArgumentsExact, Arguments.getStr, Arguments.getVec, isText,
      tryValidate, bind, Except.bind, pure, Except.pure]
  unfold ftInfo
  rw [named]
  dsimp only
  rw [isThere]
  have here := listed (dbindex, name)
  have count : (getIndex catalogue.state dbindex name).elim 0
      PersistentVectorIndex.len = (catalogue.documents (dbindex, name)).card := by
    unfold getIndex
    cases known : catalogue.state.indexStorage.lookup (dbindex, name) with
    | none =>
        rw [known] at here
        dsimp only at here
        rw [here]
        rfl
    | some persistent =>
        rw [known] at here
        obtain ⟨scan, lists⟩ := here
        exact lists.size
  rw [← count]
  cases getIndex catalogue.state dbindex name with
  | none => rfl
  | some index => rfl

/-- While every request is as it should be, each changes its own document
only, and FT.INFO counts the documents. -/
theorem documents_independent
    {state : FtState} (fresh : Fresh state)
    {requests : List DocumentRequest} {catalogue : Catalogue}
    (run : Runs (Steps Meets) (empty state) requests catalogue) :
    catalogue.Counts ∧ ∀ request reply after, Below request catalogue →
      Meets request catalogue → Step request catalogue reply after →
      Changes request catalogue reply after := by
  have listed : catalogue.Listed := by
    refine run.invariant Listed ?_ (listed_empty fresh)
    intro before request after listed step
    obtain ⟨below, meets, reply, step⟩ := step
    exact (step_changes listed below meets step).1
  refine ⟨listed_counts listed, ?_⟩
  intro request reply after below meets step
  exact (step_changes listed below meets step).2

end Catalogue

end

/-! ## An index of one number -/

section

attribute [local instance] Platform.integral VectorPlatform.integral

/-- Nothing is on disk and nothing fails. -/
noncomputable def FtEnv.still : FtEnv where
  env := .still 0
  listing := .any DocId
  opened := fun _ _ => some .empty
  storeFailure := none
  snapshotFailure := none

/-- The key of an index is there, and nothing else. -/
noncomputable def oneIndex : FtState where
  db := (Database.new {} none).put 0 (indexMetaKey (text "i"))
    (.setString (text "dimension:1"))
  indexStorage := ∅

noncomputable def addDocument (document number : String) : DocumentRequest where
  ft := .still
  command := .add
  argv := [text "FT.ADD", text "i", text document, text "1", text "FIELDS",
    text "vector", text number]
  dbindex := 0

noncomputable def delDocument (document : String) : DocumentRequest where
  ft := .still
  command := .del
  argv := [text "FT.DEL", text "i", text document]
  dbindex := 0

namespace Catalogue

theorem fresh_oneIndex : Fresh oneIndex := by
  intro index persistent known
  cases known

/-- One document is added. -/
theorem addOne :
    ∃ between, (addDocument "a" "1").run oneIndex = some (.ok, between) ∧
      ((delDocument "b").run between).map Prod.fst = some (.integer 1) ∧
      (between.indexStorage.lookup (0, text "i")).map
          (fun index => (index.index.len, index.index.hnswThreshold)) =
        some (1, 10000) := by
  have ran : ((addDocument "a" "1").run oneIndex).map (fun result =>
      (result.1, ((delDocument "b").run result.2).map Prod.fst,
        (result.2.indexStorage.lookup (0, text "i")).map
          (fun index => (index.index.len, index.index.hnswThreshold)))) =
      some (.ok, some (.integer 1), some (1, 10000)) := by
    rfl
  obtain ⟨⟨reply, between⟩, added, result⟩ := Option.map_eq_some_iff.mp ran
  obtain ⟨rfl, result⟩ := Prod.mk.inj result
  obtain ⟨deleted, size⟩ := Prod.mk.inj result
  exact ⟨between, added, deleted, size⟩

/-- The catalogue with the one document. -/
noncomputable def withOne (between : FtState) : Catalogue where
  state := between
  documents := recorded (addDocument "a" "1") .ok fun _ => ∅

theorem step_oneIndex {between : FtState}
    (added : (addDocument "a" "1").run oneIndex = some (.ok, between)) :
    Step (addDocument "a" "1") (empty oneIndex) .ok (withOne between) :=
  ⟨added, rfl⟩

theorem below_oneIndex : Below (addDocument "a" "1") (empty oneIndex) := by
  intro persistent known
  cases known

/-- A document that was not there is deleted, and one document hides another
whose number it has. -/
theorem documents_depend :
    (¬∀ (state : FtState) (requests : List DocumentRequest)
      (catalogue : Catalogue), Fresh state →
      Runs (Steps fun _ _ => True) (empty state) requests catalogue →
      catalogue.Counts ∧ ∀ request reply after, Below request catalogue →
        Step request catalogue reply after →
        Changes request catalogue reply after) ∧
    ∃ between after,
      (addDocument "Aa" "1").run oneIndex = some (.ok, between) ∧
      (addDocument "BB" "2").run between = some (.ok, after) ∧
      vectorOf ⟨after, fun _ => ∅⟩ (0, text "i") (text "Aa") =
        some (integers [2]) := by
  constructor
  · intro independent
    obtain ⟨between, added, deleted, size⟩ := addOne
    have run : Runs (Steps fun _ _ => True) (empty oneIndex)
        [addDocument "a" "1"] (withOne between) :=
      .next ⟨below_oneIndex, trivial, .ok, step_oneIndex added⟩ (.done _)
    obtain ⟨⟨reply, after⟩, ran, isReply⟩ := Option.map_eq_some_iff.mp deleted
    have below : Below (delDocument "b") (withOne between) := by
      intro persistent known
      obtain ⟨index, isIndex, numbers⟩ := Option.map_eq_some_iff.mp size
      cases isIndex.symm.trans known
      obtain ⟨len, threshold⟩ := Prod.mk.inj numbers
      rw [len, threshold]
      decide
    have changes := (independent oneIndex [addDocument "a" "1"]
      (withOne between) fresh_oneIndex run).2 (delDocument "b") reply
      ⟨after, recorded (delDocument "b") reply (withOne between).documents⟩
      below ⟨ran, rfl⟩
    change reply = .integer 1 at isReply
    have answer := changes.deleted rfl (by rw [isReply]; rfl)
    have absent : text "b" ∉
        recorded (addDocument "a" "1") .ok (fun _ => ∅) (0, text "i") := by
      decide
    rw [isReply] at answer
    cases answer.trans (congrArg bit (decide_eq_false absent))
  · have ran : ((addDocument "Aa" "1").run oneIndex).bind (fun first =>
        ((addDocument "BB" "2").run first.2).map fun second =>
          (first.1, second.1,
            vectorOf ⟨second.2, fun _ => ∅⟩ (0, text "i") (text "Aa"))) =
        some (.ok, .ok, some (integers [2])) := by
      rfl
    obtain ⟨⟨first, between⟩, added, ran⟩ := Option.bind_eq_some_iff.mp ran
    obtain ⟨⟨second, after⟩, addedToo, ran⟩ := Option.map_eq_some_iff.mp ran
    obtain ⟨rfl, others⟩ := Prod.mk.inj ran
    obtain ⟨rfl, hidden⟩ := Prod.mk.inj others
    exact ⟨between, after, added, addedToo, hidden⟩

/-- An index with one document counts one. -/
theorem documents_independent_one :
    ∃ between, Runs (Steps Meets) (empty oneIndex) [addDocument "a" "1"]
        (withOne between) ∧
      (withOne between).Counts ∧ ∀ request reply after,
        Below request (withOne between) → Meets request (withOne between) →
        Step request (withOne between) reply after →
        Changes request (withOne between) reply after := by
  obtain ⟨between, added, -, -⟩ := addOne
  have meets : Meets (addDocument "a" "1") (empty oneIndex) := by
    refine ⟨?_, rfl, rfl, ?_⟩
    · intro none
      have some : (addDocument "a" "1").vector = some (integers [1]) := by
        rfl
      cases none.symm.trans some
    · intro other none
      cases none
  have run : Runs (Steps Meets) (empty oneIndex) [addDocument "a" "1"]
      (withOne between) :=
    .next ⟨below_oneIndex, meets, .ok, step_oneIndex added⟩ (.done _)
  exact ⟨between, run, documents_independent fresh_oneIndex run⟩

end Catalogue

end

end RedVector.Command
