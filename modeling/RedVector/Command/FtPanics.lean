import RedVector.Command.Documents
import RedVector.Command.FtSchema
import RedVector.VectorSearch.Panics

/-!
# Where the commands of the vector search panic

The commands again, with every step that may panic: a slice of the schema, the
reply that names a command, a database that is not there, tables that cannot be
opened, an announcement of a key that is removed, and the search itself.
-/

namespace RedVector.Command

open Effect Util Database VectorSearch VectorSearch.Panicking

/-! ## Commands -/

section Commands

variable [Platform] [VectorPlatform]

namespace Panicking

section

variable {α : Type}

/-- What every command begins with: the number of its arguments, whose reply
reads the name of the command, and the name of its index. -/
def withIndexName (wrong : Bool) (argv : Arguments) (reply : Response → α)
    (rest : Bytes → Option α) : Option α :=
  if wrong then
    match argv.getStr 0 with
    | .ok _ => some (reply (wrongNumberOfArguments argv))
    | .error _ => none
  else
    match tryValidate (argv.getStr 1) "ERR invalid index name" with
    | .error failure => some (reply failure)
    | .ok indexName => rest indexName

/-- `db.get(dbindex, &meta_key).is_some()`. -/
def indexFound (ft : FtEnv) (state : FtState) (dbindex : Nat)
    (indexName : Bytes) : Option Bool :=
  state.db.checked dbindex (some (indexExists ft state dbindex indexName))

/-- The lookup of an index that has to be there. -/
def withIndex (ft : FtEnv) (state : FtState) (dbindex : Nat)
    (indexName : Bytes) (reply : Response → α) (rest : Option α) :
    Option α := do
  if ← indexFound ft state dbindex indexName then rest
  else pure (reply (.fail "ERR no such index"))

end

def ftCreate (ft : FtEnv) (argv : Arguments) (dbindex : Nat)
    (state : FtState) : Option (Response × FtState) :=
  withIndexName (argv.length < 2) argv (·, state) fun indexName =>
    if indexName.isEmpty then
      some (.fail "ERR index name cannot be empty", state)
    else do
      if ← indexFound ft state dbindex indexName then
        pure (.fail "ERR index already exists", state)
      else do
        let (hasVector, dimension) ← schema (argv.drop 2)
        let state ←
          if hasVector then
            (createIndex ft state dbindex indexName dimension .cosine).map
              Prod.snd
          else some state
        let metaKey := indexMetaKey indexName
        let (_, db) ← state.db.getOrCreate ft.env dbindex metaKey
        let db := db.put dbindex metaKey
          (.setString (text "dimension:" ++ natToString dimension))
        pure (.ok, { state with db := db })

def ftSearch (outside : Outside) (ft : FtEnv) (argv : Arguments)
    (dbindex : Nat) (state : FtState) : Option Response :=
  withIndexName (argv.length < 3) argv id fun indexName =>
    match tryValidate (argv.getStr 2) "ERR invalid query" with
    | .error failure => some failure
    | .ok query =>
        withIndex ft state dbindex indexName id
          (if query = text "*" then some (.array [.integer 0])
          else
            match getIndex state dbindex indexName, parseVector query with
            | some index, some queryVector => do
                match ← search outside ft.listing queryVector 10
                    index.index.backend with
                | .ok results =>
                    pure (.array (.integer results.length ::
                      results.map fun result =>
                        .array [.data (natToString result.1.toNat),
                          .data (text "score"),
                          .data (VectorPlatform.f32ToString result.2)]))
                | .error _ => pure (.array [.integer 0])
            | _, _ => some (.array [.integer 0]))

def ftInfo (ft : FtEnv) (argv : Arguments) (dbindex : Nat)
    (state : FtState) : Option Response :=
  withIndexName (argv.length ≠ 2) argv id fun indexName =>
    withIndex ft state dbindex indexName id
      (let numDocs :=
        match getIndex state dbindex indexName with
        | some index => index.len
        | none => 0
      some (.array [.data (text "index_name"), .data indexName,
        .data (text "num_docs"), .data (natToString numDocs),
        .data (text "index_definition"), .array []]))

def ftDrop (ft : FtEnv) (argv : Arguments) (dbindex : Nat)
    (state : FtState) : Option (Response × FtState) :=
  withIndexName (argv.length < 2) argv (·, state) fun indexName =>
    withIndex ft state dbindex indexName (·, state) do
      let (_, db) ← state.db.remove ft.env dbindex (indexMetaKey indexName)
      pure (.ok,
        { db := db
          indexStorage := state.indexStorage.erase (dbindex, indexName) })

def ftAdd (outside : Outside) (ft : FtEnv) (argv : Arguments)
    (dbindex : Nat) (state : FtState) : Option (Response × FtState) :=
  withIndexName (argv.length < 4) argv (·, state) fun indexName =>
    match (do
        let docId ← tryValidate (argv.getStr 2) "ERR invalid document ID"
        let _ ← tryValidate (argv.getF64 3) "ERR invalid score"
        pure docId : Except Response Bytes) with
    | .error failure => some (failure, state)
    | .ok docId =>
        withIndex ft state dbindex indexName (·, state)
          (match fieldsVector (argv.drop 4) with
          | none => some (.ok, state)
          | some vector => do
              let (index, state) ←
                getOrCreateIndex ft state dbindex indexName vector.length
              let (added, index) ← add outside ft.storeFailure
                ft.snapshotFailure index (documentNumber docId) vector
              let reply :=
                match added with
                | .error error =>
                    .error (text "ERR failed to add vector: " ++ error)
                | .ok _ => .ok
              pure (reply, setIndex state dbindex indexName index))

def ftDel (ft : FtEnv) (argv : Arguments) (dbindex : Nat)
    (state : FtState) : Option (Response × FtState) :=
  withIndexName (argv.length < 3) argv (·, state) fun indexName =>
    match tryValidate (argv.getStr 2) "ERR invalid document ID" with
    | .error failure => some (failure, state)
    | .ok docId =>
        withIndex ft state dbindex indexName (·, state)
          (let (deleted, state) := removeDocument state dbindex indexName docId
          if deletesKey argv 3 then do
            let (_, db) ← state.db.remove ft.env dbindex docId
            pure (bit deleted, { state with db := db })
          else some (bit deleted, state))

section

variable {α : Type} {ft : FtEnv} {state : FtState} {argv : Arguments}
  {dbindex : Nat} {indexName : Bytes} {reply : Response → α}

omit [Platform] [VectorPlatform] in
theorem withIndexName_returns {wrong : Bool} {rest : Bytes → Option α} :
    (withIndexName wrong argv reply rest).isSome = true ↔
      (wrong = true → (argv.getStr 0).isOk = true) ∧
        (wrong = false → ∀ indexName, argv.getStr 1 = .ok indexName →
          (rest indexName).isSome = true) := by
  unfold withIndexName
  cases wrong with
  | true =>
      cases argv.getStr 0 with
      | ok name => simp [Except.isOk, Except.toBool]
      | error error => simp [Except.isOk, Except.toBool]
  | false =>
      cases argv.getStr 1 with
      | ok indexName => simp [tryValidate]
      | error error => simp [tryValidate]

theorem withIndex_returns {rest : Option α} :
    (withIndex ft state dbindex indexName reply rest).isSome = true ↔
      state.db.inBounds dbindex = true ∧
        (indexExists ft state dbindex indexName = true →
          rest.isSome = true) := by
  unfold withIndex indexFound checked
  cases state.db.inBounds dbindex with
  | false => simp
  | true =>
      cases indexExists ft state dbindex indexName with
      | true => simp
      | false => simp

end

end Panicking

/-- The arguments of a command: whether their number is wrong, and what is asked
of the name of the index if not. -/
def Named (wrong : Prop) (argv : Arguments) (rest : Bytes → Prop) : Prop :=
  (wrong → (argv.getStr 0).isOk = true) ∧
    (¬wrong → ∀ indexName, argv.getStr 1 = .ok indexName → rest indexName)

/-- The database of a command: it is there, and what is asked of an index that
is known. -/
def Known (ft : FtEnv) (state : FtState) (dbindex : Nat) (indexName : Bytes)
    (rest : Prop) : Prop :=
  state.db.inBounds dbindex = true ∧
    (indexExists ft state dbindex indexName = true → rest)

inductive FtCommand where
  | create | search | info | drop | add | del

namespace FtCommand

variable (outside : Outside) (ft : FtEnv) (argv : Arguments) (dbindex : Nat)
  (state : FtState)

/-- A command, where `none` is a panic. -/
def run : FtCommand → Option (Response × FtState)
  | create => Panicking.ftCreate ft argv dbindex state
  | search => (Panicking.ftSearch outside ft argv dbindex state).map (·, state)
  | info => (Panicking.ftInfo ft argv dbindex state).map (·, state)
  | drop => Panicking.ftDrop ft argv dbindex state
  | add => Panicking.ftAdd outside ft argv dbindex state
  | del => Panicking.ftDel ft argv dbindex state

/-- What a command needs to return. -/
def Returns : FtCommand → Prop
  | create => Named (argv.length < 2) argv fun indexName =>
      indexName ≠ [] → state.db.inBounds dbindex = true ∧
        (indexExists ft state dbindex indexName = false →
          (∀ fieldType ∈ schemaTypes (argv.drop 2), ¬ ClosesFirst fieldType) ∧
          (schemaTypes (argv.drop 2) ≠ [] →
            (ft.opened dbindex indexName).isSome = true) ∧
          (state.db.getOrCreate ft.env dbindex
            (indexMetaKey indexName)).isSome = true)
  | search => Named (argv.length < 3) argv fun indexName =>
      ∀ query, argv.getStr 2 = .ok query →
        Known ft state dbindex indexName
          (∀ index queryVector, query ≠ text "*" →
            getIndex state dbindex indexName = some index →
            parseVector query = some queryVector →
            SearchReturns outside ft.listing queryVector 10
              index.index.backend)
  | info => Named (argv.length ≠ 2) argv fun indexName =>
      Known ft state dbindex indexName True
  | drop => Named (argv.length < 2) argv fun indexName =>
      Known ft state dbindex indexName True
  | add => Named (argv.length < 4) argv fun indexName =>
      ∀ docId score, argv.getStr 2 = .ok docId → argv.getF64 3 = .ok score →
        Known ft state dbindex indexName
          (∀ vector, fieldsVector (argv.drop 4) = some vector →
            (getIndex state dbindex indexName = none →
              (ft.opened dbindex indexName).isSome = true) ∧
            ∀ index, getIndex state dbindex indexName = some index →
              AddReturns outside index.index (documentNumber docId) vector)
  | del => Named (argv.length < 3) argv fun indexName =>
      ∀ docId, argv.getStr 2 = .ok docId →
        Known ft state dbindex indexName
          (deletesKey argv 3 = true →
            (state.db.remove ft.env dbindex docId).isSome = true)

end FtCommand

namespace Panicking

variable {outside : Outside} {ft : FtEnv} {argv : Arguments} {dbindex : Nat}
  {state : FtState}

omit [Platform] [VectorPlatform] in
theorem named_returns {α : Type} {wrong : Prop} [Decidable wrong]
    {reply : Response → α} {rest : Bytes → Option α} {needs : Bytes → Prop}
    (rests : ∀ indexName, (rest indexName).isSome = true ↔ needs indexName) :
    (withIndexName (decide wrong) argv reply rest).isSome = true ↔
      Named wrong argv needs := by
  rw [withIndexName_returns]
  simp only [decide_eq_true_eq, decide_eq_false_iff_not, rests]
  exact Iff.rfl

theorem ftInfo_returns :
    (ftInfo ft argv dbindex state).isSome = true ↔
      FtCommand.info.Returns outside ft argv dbindex state := by
  apply named_returns
  intro indexName
  rw [withIndex_returns]
  simp [Known]

/-- An index is created in tables that can be opened. -/
theorem createIndex_eq (indexName : Bytes) (dimension : Nat)
    (metric : VectorMetric) :
    createIndex ft state dbindex indexName dimension metric =
      (ft.opened dbindex indexName).map fun tables =>
        (.new indexName dimension metric tables 1000,
          setIndex state dbindex indexName
            (.new indexName dimension metric tables 1000)) := by
  unfold createIndex
  cases ft.opened dbindex indexName with
  | none => rfl
  | some tables => rfl

/-- The part of `FT.CREATE` behind the checks. -/
theorem created_returns {indexName : Bytes} :
    (do
      let (hasVector, dimension) ← schema (argv.drop 2)
      let state ←
        if hasVector then
          (createIndex ft state dbindex indexName dimension .cosine).map
            Prod.snd
        else some state
      let metaKey := indexMetaKey indexName
      let (_, db) ← state.db.getOrCreate ft.env dbindex metaKey
      let db := db.put dbindex metaKey
        (.setString (text "dimension:" ++ natToString dimension))
      pure (Response.ok, { state with db := db }) :
      Option (Response × FtState)).isSome = true ↔
      (∀ fieldType ∈ schemaTypes (argv.drop 2), ¬ ClosesFirst fieldType) ∧
        (schemaTypes (argv.drop 2) ≠ [] →
          (ft.opened dbindex indexName).isSome = true) ∧
        (state.db.getOrCreate ft.env dbindex
          (indexMetaKey indexName)).isSome = true := by
  rw [← lastDimension_returns _ 128, schema_eq]
  cases lastDimension (schemaTypes (argv.drop 2)) 128 with
  | none => simp
  | some dimension =>
      cases created : state.db.getOrCreate ft.env dbindex
          (indexMetaKey indexName) with
      | none =>
          cases schemaTypes (argv.drop 2) with
          | nil => simp [created]
          | cons first rest =>
              cases opens : ft.opened dbindex indexName with
              | none => simp [createIndex_eq, opens]
              | some tables => simp [createIndex_eq, opens, setIndex, created]
      | some result =>
          cases schemaTypes (argv.drop 2) with
          | nil => simp [created]
          | cons first rest =>
              cases opens : ft.opened dbindex indexName with
              | none => simp [createIndex_eq, opens]
              | some tables => simp [createIndex_eq, opens, setIndex, created]

theorem ftCreate_returns :
    (ftCreate ft argv dbindex state).isSome = true ↔
      FtCommand.create.Returns outside ft argv dbindex state := by
  apply named_returns
  intro indexName
  cases indexName with
  | nil => simp
  | cons first rest =>
      generalize isName : first :: rest = indexName
      have some : indexName ≠ [] := by
        rw [← isName]
        exact List.cons_ne_nil _ _
      rw [if_neg (by simpa using some)]
      unfold indexFound checked
      cases state.db.inBounds dbindex with
      | false => simp [some]
      | true =>
          cases indexExists ft state dbindex indexName with
          | true => simp [some]
          | false =>
              simp only [some, ne_eq, not_false_eq_true, true_and, forall_const]
              exact created_returns

omit [VectorPlatform] in
/-- A key that has not expired is removed without an announcement. -/
theorem remove_returns {env : Env} {db : Database} {index : Nat}
    {key : Bytes} (alive : db.isExpired env index key = false) :
    (db.remove env index key).isSome = true := by
  unfold Database.remove
  rw [alive]
  rfl

theorem ftDrop_returns :
    (ftDrop ft argv dbindex state).isSome = true ↔
      FtCommand.drop.Returns outside ft argv dbindex state := by
  apply named_returns
  intro indexName
  rw [withIndex_returns]
  unfold Known
  apply and_congr_right
  intro _
  simp only [implies_true, iff_true]
  intro found
  have alive : state.db.isExpired ft.env dbindex (indexMetaKey indexName) =
      false := by
    apply Bool.eq_false_iff.mpr
    intro expired
    unfold indexExists Database.get at found
    rw [if_pos expired] at found
    cases found
  obtain ⟨removed, isRemoved⟩ := Option.isSome_iff_exists.mp
    (remove_returns alive)
  rw [isRemoved]
  rfl

theorem ftSearch_returns :
    (ftSearch outside ft argv dbindex state).isSome = true ↔
      FtCommand.search.Returns outside ft argv dbindex state := by
  apply named_returns
  intro indexName
  cases argv.getStr 2 with
  | error error => simp [tryValidate]
  | ok query =>
      simp only [tryValidate, Except.ok.injEq, forall_eq']
      rw [withIndex_returns]
      unfold Known
      apply and_congr_right
      intro _
      apply imp_congr_right
      intro _
      by_cases everything : query = text "*"
      · simp [everything]
      · rw [if_neg everything]
        cases getIndex state dbindex indexName with
        | none => simp
        | some index =>
            cases parseVector query with
            | none => simp
            | some queryVector =>
                have only : (∀ (other : PersistentVectorIndex)
                    (vector : Vector32), query ≠ text "*" →
                    some index = some other → some queryVector = some vector →
                    SearchReturns outside ft.listing vector 10
                      other.index.backend) ↔
                    SearchReturns outside ft.listing queryVector 10
                      index.index.backend := by
                  simp [everything]
                rw [only, ← search_isSome]
                dsimp only
                cases search outside ft.listing queryVector 10
                    index.index.backend with
                | none => exact Iff.rfl
                | some answer =>
                    cases answer with
                    | ok results => exact Iff.rfl
                    | error error => exact Iff.rfl

theorem ftAdd_returns :
    (ftAdd outside ft argv dbindex state).isSome = true ↔
      FtCommand.add.Returns outside ft argv dbindex state := by
  apply named_returns
  intro indexName
  cases argv.getStr 2 with
  | error error => simp [tryValidate, bind, Except.bind]
  | ok docId =>
      cases argv.getF64 3 with
      | error error => simp [tryValidate, bind, Except.bind]
      | ok score =>
          simp only [tryValidate, bind, Except.bind, pure, Except.pure,
            Except.ok.injEq, forall_eq', forall_apply_eq_imp_iff]
          rw [withIndex_returns]
          unfold Known
          apply and_congr_right
          intro _
          apply imp_congr_right
          intro _
          cases fieldsVector (argv.drop 4) with
          | none => simp
          | some vector =>
              simp only [Option.some.injEq, forall_eq']
              unfold getOrCreateIndex
              cases getIndex state dbindex indexName with
              | some index =>
                  have only : ((some index = none →
                      (ft.opened dbindex indexName).isSome = true) ∧
                      ∀ other, some index = some other →
                        AddReturns outside other.index (documentNumber docId)
                          vector) ↔
                      AddReturns outside index.index (documentNumber docId)
                        vector := by
                    simp
                  rw [only, ← add_isSome ft.storeFailure ft.snapshotFailure]
                  cases added : add outside ft.storeFailure ft.snapshotFailure
                      index (documentNumber docId) vector with
                  | none => simp [added]
                  | some result => simp [added]
              | none =>
                  dsimp only
                  rw [createIndex_eq]
                  cases ft.opened dbindex indexName with
                  | none => simp
                  | some tables =>
                      have added := add_eq
                        (new_addReturns outside indexName vector.length
                          .cosine tables (documentNumber docId) vector)
                        ft.storeFailure ft.snapshotFailure
                      simp [added]

theorem removeDocument_db (indexName docId : Bytes) :
    (removeDocument state dbindex indexName docId).2.db = state.db := by
  unfold removeDocument
  split
  · rfl
  · rfl

theorem ftDel_returns :
    (ftDel ft argv dbindex state).isSome = true ↔
      FtCommand.del.Returns outside ft argv dbindex state := by
  apply named_returns
  intro indexName
  cases argv.getStr 2 with
  | error error => simp [tryValidate]
  | ok docId =>
      simp only [tryValidate, Except.ok.injEq, forall_eq']
      rw [withIndex_returns]
      unfold Known
      apply and_congr_right
      intro _
      apply imp_congr_right
      intro _
      have same : (removeDocument state dbindex indexName docId).2.db =
          state.db := removeDocument_db indexName docId
      generalize removeDocument state dbindex indexName docId = result
        at same ⊢
      obtain ⟨deleted, after⟩ := result
      dsimp only at same ⊢
      cases deletesKey argv 3 with
      | false => simp
      | true =>
          rw [← same]
          cases after.db.remove ft.env dbindex docId with
          | none => simp
          | some result => simp

/-! ### Agreement -/

omit [Platform] [VectorPlatform] in
/-- The three ways in which a command begins. -/
theorem withIndexName_some {α : Type} {wrong : Prop} [Decidable wrong]
    {reply : Response → α} {rest : Bytes → Option α} {answer : α}
    (answered : withIndexName (decide wrong) argv reply rest = some answer) :
    wrong ∧ answer = reply (wrongNumberOfArguments argv) ∨
      (¬wrong ∧ ∃ error, argv.getStr 1 = .error error ∧
        answer = reply (.fail "ERR invalid index name")) ∨
      ¬wrong ∧ ∃ indexName, argv.getStr 1 = .ok indexName ∧
        rest indexName = some answer := by
  unfold withIndexName at answered
  by_cases few : wrong
  · rw [if_pos (decide_eq_true few)] at answered
    split at answered
    · cases answered
      exact .inl ⟨few, rfl⟩
    · cases answered
  · rw [if_neg (by simp [few])] at answered
    cases isName : argv.getStr 1 with
    | error error =>
        rw [isName] at answered
        cases answered
        exact .inr (.inl ⟨few, error, rfl, rfl⟩)
    | ok indexName =>
        rw [isName] at answered
        exact .inr (.inr ⟨few, indexName, rfl, answered⟩)

theorem withIndex_agrees {α : Type} {indexName : Bytes}
    {reply : Response → α} {rest : Option α} {answer : α}
    (answered : withIndex ft state dbindex indexName reply rest =
      some answer) :
    (if !indexExists ft state dbindex indexName then
      some (reply (.fail "ERR no such index")) else rest) = some answer := by
  unfold withIndex indexFound checked at answered
  cases isFound : indexExists ft state dbindex indexName with
  | true =>
      cases inside : state.db.inBounds dbindex with
      | true => simpa [isFound, inside] using answered
      | false => simp [inside] at answered
  | false =>
      cases inside : state.db.inBounds dbindex with
      | true => simpa [isFound, inside] using answered
      | false => simp [inside] at answered

theorem ftInfo_agrees {reply : Response}
    (answered : ftInfo ft argv dbindex state = some reply) :
    Command.ftInfo ft argv dbindex state = reply := by
  unfold Command.ftInfo validateArgumentsExact
  rcases withIndexName_some answered with ⟨wrong, rfl⟩ |
    ⟨right, error, isName, rfl⟩ | ⟨right, indexName, isName, answered⟩
  · rw [if_neg wrong]
    rfl
  · rw [if_pos (not_not.mp right), isName]
    rfl
  · rw [if_pos (not_not.mp right), isName]
    have agrees := withIndex_agrees answered
    show (if !indexExists ft state dbindex indexName then _ else _) = _
    cases isFound : indexExists ft state dbindex indexName with
    | false =>
        rw [isFound] at agrees
        exact Option.some.inj agrees
    | true =>
        rw [isFound] at agrees
        exact Option.some.inj agrees

theorem ftCreate_agrees {answer : Response × FtState}
    (answered : ftCreate ft argv dbindex state = some answer) :
    Command.ftCreate ft argv dbindex state = some answer := by
  unfold Command.ftCreate validateArgumentsGte
  rcases withIndexName_some answered with ⟨few, rfl⟩ |
    ⟨enough, error, isName, rfl⟩ | ⟨enough, indexName, isName, answered⟩
  · rw [if_pos few]
    rfl
  · rw [if_neg enough, isName]
    rfl
  · rw [if_neg enough, isName]
    show (if indexName.isEmpty then _ else _) = _
    cases empty : indexName.isEmpty with
    | true =>
        rw [empty] at answered
        exact answered
    | false =>
        rw [empty] at answered
        obtain ⟨found, isFound, answered⟩ :=
          Option.bind_eq_some_iff.mp answered
        obtain ⟨-, same⟩ := checked_eq_some.mp isFound
        rw [← Option.some.inj same] at answered
        exact answered

theorem ftDrop_agrees {answer : Response × FtState}
    (answered : ftDrop ft argv dbindex state = some answer) :
    Command.ftDrop ft argv dbindex state = some answer := by
  unfold Command.ftDrop validateArgumentsGte
  rcases withIndexName_some answered with ⟨few, rfl⟩ |
    ⟨enough, error, isName, rfl⟩ | ⟨enough, indexName, isName, answered⟩
  · rw [if_pos few]
    rfl
  · rw [if_neg enough, isName]
    rfl
  · rw [if_neg enough, isName]
    exact withIndex_agrees answered

/-- The part of `FT.SEARCH` behind the checks. -/
theorem searched_agrees {index : PersistentVectorIndex}
    {queryVector : Vector32} {reply : Response}
    {ok : List (DocId × F32) → Response} {failed : Response}
    (answered : (do
      match ← search outside ft.listing queryVector 10 index.index.backend with
      | .ok results => pure (ok results)
      | .error _ => pure failed : Option Response) = some reply) :
    (match (index.search ft.listing queryVector 10).toOption with
    | some results => ok results
    | none => failed) = reply := by
  obtain ⟨answer, searched, answered⟩ := Option.bind_eq_some_iff.mp answered
  have same := search_eq (search_returns searched)
  cases searched.symm.trans same
  have same : index.search ft.listing queryVector 10 =
    index.index.backend.search ft.listing queryVector 10 := rfl
  rw [same]
  generalize index.index.backend.search ft.listing queryVector 10 = found
    at answered ⊢
  cases found with
  | ok results => exact Option.some.inj answered
  | error error => exact Option.some.inj answered

theorem ftSearch_agrees {reply : Response}
    (answered : ftSearch outside ft argv dbindex state = some reply) :
    Command.ftSearch ft argv dbindex state = reply := by
  unfold Command.ftSearch validateArgumentsGte
  rcases withIndexName_some answered with ⟨few, rfl⟩ |
    ⟨enough, error, isName, rfl⟩ | ⟨enough, indexName, isName, answered⟩
  · rw [if_pos few]
    rfl
  · rw [if_neg enough, isName]
    rfl
  rw [if_neg enough, isName]
  cases isQuery : argv.getStr 2 with
  | error error =>
      rw [isQuery] at answered
      exact Option.some.inj answered
  | ok query =>
      rw [isQuery] at answered
      have agrees := withIndex_agrees answered
      show (if !indexExists ft state dbindex indexName then _ else _) = _
      cases isFound : indexExists ft state dbindex indexName with
      | false =>
          rw [isFound] at agrees
          exact Option.some.inj agrees
      | true =>
          rw [isFound] at agrees
          have agrees : (if query = text "*" then _ else _) = _ := agrees
          show (if query = text "*" then _ else _) = _
          by_cases everything : query = text "*"
          · rw [if_pos everything] at agrees ⊢
            exact Option.some.inj agrees
          · rw [if_neg everything] at agrees ⊢
            generalize getIndex state dbindex indexName = known at agrees ⊢
            generalize parseVector query = parsed at agrees ⊢
            cases known with
            | none => exact Option.some.inj agrees
            | some index =>
                cases parsed with
                | none => exact Option.some.inj agrees
                | some queryVector => exact searched_agrees agrees

/-- The part of `FT.ADD` behind the checks. -/
theorem added_agrees {indexName docId : Bytes} {vector : Vector32}
    {answer : Response × FtState}
    {reply : Except Bytes Unit → Response}
    (answered : (do
      let (index, state) ←
        getOrCreateIndex ft state dbindex indexName vector.length
      let (added, index) ← add outside ft.storeFailure ft.snapshotFailure index
        (documentNumber docId) vector
      pure (reply added, setIndex state dbindex indexName index) :
      Option (Response × FtState)) = some answer) :
    (do
      let (index, state) ←
        getOrCreateIndex ft state dbindex indexName vector.length
      let (added, index) := index.add ft.storeFailure ft.snapshotFailure
        (documentNumber docId) vector
      pure (reply added, setIndex state dbindex indexName index) :
      Option (Response × FtState)) = some answer := by
  obtain ⟨⟨index, created⟩, got, answered⟩ :=
    Option.bind_eq_some_iff.mp answered
  obtain ⟨⟨result, after⟩, added, answered⟩ :=
    Option.bind_eq_some_iff.mp answered
  have same := add_eq (add_returns added) ft.storeFailure ft.snapshotFailure
  have same := Option.some.inj (added.symm.trans same)
  rw [got]
  show some (reply (index.add ft.storeFailure ft.snapshotFailure
      (documentNumber docId) vector).1,
    setIndex created dbindex indexName (index.add ft.storeFailure
      ft.snapshotFailure (documentNumber docId) vector).2) = _
  rw [← same]
  exact answered

theorem ftAdd_agrees {answer : Response × FtState}
    (answered : ftAdd outside ft argv dbindex state = some answer) :
    Command.ftAdd ft argv dbindex state = some answer := by
  unfold Command.ftAdd validateArgumentsGte
  rcases withIndexName_some answered with ⟨few, rfl⟩ |
    ⟨enough, error, isName, rfl⟩ | ⟨enough, indexName, isName, answered⟩
  · rw [if_pos few]
    rfl
  · rw [if_neg enough, isName]
    rfl
  rw [if_neg enough, isName]
  cases isId : argv.getStr 2 with
  | error error =>
      rw [isId] at answered
      exact answered
  | ok docId =>
      cases isScore : argv.getF64 3 with
      | error error =>
          rw [isId, isScore] at answered
          exact answered
      | ok score =>
          rw [isId, isScore] at answered
          have agrees := withIndex_agrees answered
          show (if !indexExists ft state dbindex indexName then _ else _) = _
          cases isFound : indexExists ft state dbindex indexName with
          | false =>
              rw [isFound] at agrees
              exact agrees
          | true =>
              rw [isFound] at agrees
              generalize fieldsVector (argv.drop 4) = parsed at agrees ⊢
              cases parsed with
              | none => exact agrees
              | some vector =>
                  exact @added_agrees _ _ outside ft dbindex state indexName
                    docId vector answer
                    (fun
                      | .error error =>
                          .error (text "ERR failed to add vector: " ++ error)
                      | .ok _ => .ok) agrees

theorem ftDel_agrees {answer : Response × FtState}
    (answered : ftDel ft argv dbindex state = some answer) :
    Command.ftDel ft argv dbindex state = some answer := by
  unfold Command.ftDel validateArgumentsGte
  rcases withIndexName_some answered with ⟨few, rfl⟩ |
    ⟨enough, error, isName, rfl⟩ | ⟨enough, indexName, isName, answered⟩
  · rw [if_pos few]
    rfl
  · rw [if_neg enough, isName]
    rfl
  rw [if_neg enough, isName]
  cases isId : argv.getStr 2 with
  | error error =>
      rw [isId] at answered
      exact answered
  | ok docId =>
      rw [isId] at answered
      exact withIndex_agrees answered

end Panicking

namespace FtCommand

variable {outside : Outside} {ft : FtEnv} {argv : Arguments} {dbindex : Nat}
  {state : FtState}

/-- The commands return exactly when no type of a vector closes its parenthesis
first and what they call returns. -/
theorem ft_returns_iff (outside : Outside) (ft : FtEnv) (argv : Arguments)
    (dbindex : Nat) (state : FtState) (command : FtCommand) :
    (command.run outside ft argv dbindex state).isSome = true ↔
      command.Returns outside ft argv dbindex state := by
  cases command with
  | create => exact Panicking.ftCreate_returns
  | search =>
      unfold run
      rw [Option.isSome_map]
      exact Panicking.ftSearch_returns
  | info =>
      unfold run
      rw [Option.isSome_map]
      exact Panicking.ftInfo_returns
  | drop => exact Panicking.ftDrop_returns
  | add => exact Panicking.ftAdd_returns
  | del => exact Panicking.ftDel_returns

end FtCommand

end Commands

/-! ## A schema that panics -/

section

attribute [local instance] Platform.integral VectorPlatform.integral

/-- Everything that is called comes back. -/
def quiet : Outside where
  sorts := fun _ => true
  inserts := fun _ _ _ => true
  searches := fun _ _ _ _ => true

/-- `FT.CREATE i SCHEMA v VECTOR)4(`. -/
def closing : Arguments :=
  [text "FT.CREATE", text "i", text "SCHEMA", text "v", text "VECTOR)4("]

/-- The schema panics on an empty database in memory. -/
theorem create_panics :
    ¬ ∀ (outside : Outside) (ft : FtEnv) (argv : Arguments) (dbindex : Nat)
      (state : FtState) (command : FtCommand),
      (∀ dbindex indexName, ft.opened dbindex indexName = some .empty) →
      dbindex < state.db.config.databases →
      (command.run outside ft argv dbindex state).isSome = true := by
  intro returns
  have returned := returns quiet .still closing 0
    ⟨Database.new {} none, ∅⟩ .create (fun _ _ => rfl) (by decide)
  cases returned

end

end RedVector.Command
