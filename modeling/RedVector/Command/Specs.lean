import RedVector.Command.Macros
import RedVector.Database.Creation

/-!
# What the operations of a handler ensure

One rule for each operation in front of the rest of a handler, and rules for
the parts that most handlers share.
-/

namespace RedVector

open Util Effect Database

variable [Platform]

/-- What the rest of a handler ensures, whatever the answer was. -/
abbrev Ensures {α : Type} (env : Env) (program : Writer α)
    (post : Except Response α → Database → Prop) (db : Database) : Prop :=
  program.Ensures (machine env) post db

section Operations

variable {α β : Type} {env : Env} {db : Database} {index : Nat}
  {key : Bytes} {post : Except Response β → Database → Prop}

/-- An operation that has an answer. -/
theorem ensures_op
    (op : WriteOp) {rest : op.Ret → Writer β}
    (step : ∀ answer after, db.perform env op = some (answer, after) →
      Ensures env (rest answer) post after) :
    Ensures env ((.call op .pure : Writer op.Ret) >>= rest) post db :=
  Program.ensures_call step

/-- A part that only reads. -/
theorem ensures_reader
    {program : Reader α} {rest : α → Writer β}
    (fails : ∀ reply,
      (program.lift readInclusion).run (machine env) db =
        some (.error reply, db) → post (.error reply) db)
    (succeeds : ∀ value,
      (program.lift readInclusion).run (machine env) db =
        some (.ok value, db) → Ensures env (rest value) post db) :
    Ensures env ((liftM program : Writer α) >>= rest) post db := by
  refine Program.ensures_bind ?_
  intro result after ran
  have ran : (program.lift readInclusion).run (machine env) db =
      some (result, after) := ran
  cases lift_unchanged program ran
  cases result with
  | ok value => exact succeeds value ran
  | error reply => exact fails reply ran

/-- A part of a reader that reads more afterwards. -/
theorem ensures_lift
    {program : Reader α} {rest : α → Reader β}
    (fails : ∀ reply, post (.error reply) db)
    (succeeds : ∀ value,
      (program.lift readInclusion).run (machine env) db =
        some (.ok value, db) →
      Ensures env ((rest value).lift readInclusion) post db) :
    Ensures env ((program >>= rest).lift readInclusion) post db := by
  rw [Program.lift_bind]
  exact ensures_reader (fun reply _ => fails reply) succeeds

/-- The same for a value that is computed without an operation. -/
theorem ensures_lift_ofExcept
    {computed : Except Response α} {rest : α → Reader β}
    (fails : ∀ reply, post (.error reply) db)
    (succeeds : ∀ value, computed = .ok value →
      Ensures env ((rest value).lift readInclusion) post db) :
    Ensures env (((liftM computed : Reader α) >>= rest).lift readInclusion)
      post db := by
  cases computed with
  | ok value => exact succeeds value rfl
  | error reply => exact Program.ensures_throw (fails reply)

theorem ensures_lift_orPanic
    {computed : Option α} {rest : α → Reader β}
    (succeeds : ∀ value, computed = some value →
      Ensures env ((rest value).lift readInclusion) post db) :
    Ensures env (((orPanic computed : Reader α) >>= rest).lift
      readInclusion) post db := by
  cases computed with
  | some value => exact succeeds value rfl
  | none =>
      intro result after ran
      cases ran

theorem ensures_lift_read
    (op : ReadOp) {rest : op.Ret → Reader β}
    (step : ∀ answer, db.read env op = some answer →
      Ensures env ((rest answer).lift readInclusion) post db) :
    Ensures env (((.call op .pure : Reader op.Ret) >>= rest).lift
      readInclusion) post db := by
  refine ensures_op (.read op) ?_
  intro answer after performed
  obtain ⟨_, read, answered⟩ := Option.map_eq_some_iff.mp performed
  cases answered
  exact step answer read

theorem ensures_get
    {rest : Option Value → Writer β}
    (step : db.inBounds index = true →
      Ensures env (rest (db.visible env (index, key))) post db) :
    Ensures env ((liftM (Db.get index key) : Writer (Option Value)) >>= rest)
      post db := by
  refine ensures_op (.read (.get index key)) ?_
  intro answer after performed
  obtain ⟨_, read, answered⟩ := Option.map_eq_some_iff.mp performed
  obtain ⟨inside, got⟩ := checked_eq_some.mp read
  cases answered
  cases got
  exact step inside

/-- A reading operation that has an answer. -/
theorem ensures_read
    (op : ReadOp) {rest : op.Ret → Writer β}
    (step : ∀ answer, db.read env op = some answer →
      Ensures env (rest answer) post db) :
    Ensures env ((liftM (.call op .pure : Reader op.Ret) : Writer op.Ret) >>=
      rest) post db := by
  refine ensures_op (.read op) ?_
  intro answer after performed
  obtain ⟨_, read, answered⟩ := Option.map_eq_some_iff.mp performed
  cases answered
  exact step answer read

theorem ensures_config
    {rest : Config → Writer β}
    (step : Ensures env (rest db.config) post db) :
    Ensures env ((liftM Db.config : Writer Config) >>= rest) post db := by
  refine ensures_read .config ?_
  intro answer read
  cases read
  exact step

theorem ensures_order
    {rest : (Finset Bytes → List Bytes) → Writer β}
    (step : Ensures env (rest env.order) post db) :
    Ensures env ((liftM Db.order : Writer (Finset Bytes → List Bytes)) >>=
      rest) post db := by
  refine ensures_read .order ?_
  intro answer read
  cases read
  exact step

theorem ensures_getMut
    {rest : Option Value → Writer β}
    (step : ∀ after, db.inBounds index = true →
      db.getMut env index key = some (db.visible env (index, key), after) →
      Ensures env (rest (db.visible env (index, key))) post after) :
    Ensures env (Db.getMut index key >>= rest) post db := by
  refine ensures_op (.getMut index key) ?_
  intro answer after performed
  obtain ⟨inside, got⟩ := checked_eq_some.mp performed
  obtain ⟨rfl, -⟩ := getMut_spec got
  exact step after inside got

theorem ensures_put
    {value : Value} {rest : Unit → Writer β}
    (step : db.inBounds index = true →
      Ensures env (rest ()) post (db.put index key value)) :
    Ensures env (Db.put index key value >>= rest) post db := by
  refine ensures_op (.put index key value) ?_
  intro answer after performed
  obtain ⟨inside, written⟩ := checked_eq_some.mp performed
  cases written
  exact step inside

theorem ensures_getOrCreate
    {rest : Value → Writer β}
    (step : ∀ value after,
      db.getOrCreate env index key = some (value, after) →
      Ensures env (rest value) post after) :
    Ensures env (Db.getOrCreate index key >>= rest) post db := by
  refine ensures_op (.getOrCreate index key) ?_
  intro answer after performed
  exact step answer after (checked_eq_some.mp performed).2

theorem ensures_remove
    {rest : Option Value → Writer β}
    (step : ∀ after, db.inBounds index = true →
      db.remove env index key = some (db.visible env (index, key), after) →
      Ensures env (rest (db.visible env (index, key))) post after) :
    Ensures env (Db.remove index key >>= rest) post db := by
  refine ensures_op (.remove index key) ?_
  intro answer after performed
  obtain ⟨inside, removed⟩ := checked_eq_some.mp performed
  obtain ⟨rfl, -⟩ := remove_spec removed
  exact step after inside removed

theorem ensures_removeMsexpiration
    {rest : Option Int → Writer β}
    (step : Ensures env (rest (db.expiration (index, key))) post
      (db.removeMsexpiration index key).2) :
    Ensures env (Db.removeMsexpiration index key >>= rest) post db := by
  refine ensures_op (.removeMsexpiration index key) ?_
  intro answer after performed
  obtain ⟨-, removed⟩ := checked_eq_some.mp performed
  cases removed
  exact step

theorem ensures_setMsexpiration
    {msexpiration : Int} {rest : Unit → Writer β}
    (step : ∀ after,
      db.setMsexpiration env index key msexpiration = some after →
      Ensures env (rest ()) post after) :
    Ensures env (Db.setMsexpiration index key msexpiration >>= rest) post
      db := by
  refine ensures_op (.setMsexpiration index key msexpiration) ?_
  intro answer after performed
  have set := (checked_eq_some.mp performed).2
  exact step after (silently_eq_some.mp set)

theorem ensures_notify
    {eventType : Bytes} {commandType : UInt8} {rest : Unit → Writer β}
    (step : ∀ after, Kept db after → Ensures env (rest ()) post after) :
    Ensures env
      (Db.notifyKeyspaceEvent index eventType key commandType >>= rest) post
      db := by
  refine ensures_op (.notifyKeyspaceEvent index eventType key commandType) ?_
  intro answer after performed
  exact step after
    (notifyKeyspaceEvent_kept (silently_eq_some.mp performed))

theorem ensures_keyUpdated
    {rest : Unit → Writer β}
    (step : ∀ after, db.keyUpdated env index key = some after →
      Ensures env (rest ()) post after) :
    Ensures env (Db.keyUpdated index key >>= rest) post db := by
  refine ensures_op (.keyUpdated index key) ?_
  intro answer after performed
  have updated := (checked_eq_some.mp performed).2
  exact step after (silently_eq_some.mp updated)

end Operations

/-! ## Validation -/

section Validation

variable {α β ε : Type} {env : Env} {db : Database} {argv : Arguments}
  {post : Except Response β → Database → Prop}

theorem ensures_exact
    {expected : Nat} {rest : Unit → Writer β}
    (fails : ∀ reply, argv.length ≠ expected → post (.error reply) db)
    (succeeds : argv.length = expected → Ensures env (rest ()) post db) :
    Ensures env ((liftM (validateArgumentsExact argv expected) :
      Writer Unit) >>= rest) post db := by
  unfold validateArgumentsExact
  split
  · rename_i exact
    exact succeeds exact
  · rename_i different
    exact Program.ensures_throw (fails _ different)

theorem ensures_gte
    {expected : Nat} {rest : Unit → Writer β}
    (fails : ∀ reply, argv.length < expected → post (.error reply) db)
    (succeeds : expected ≤ argv.length → Ensures env (rest ()) post db) :
    Ensures env ((liftM (validateArgumentsGte argv expected) :
      Writer Unit) >>= rest) post db := by
  unfold validateArgumentsGte
  split
  · rename_i few
    exact Program.ensures_throw (fails _ few)
  · rename_i enough
    exact succeeds (Nat.le_of_not_lt enough)

theorem ensures_lte
    {expected : Nat} {rest : Unit → Writer β}
    (fails : ∀ reply, expected < argv.length → post (.error reply) db)
    (succeeds : argv.length ≤ expected → Ensures env (rest ()) post db) :
    Ensures env ((liftM (validateArgumentsLte argv expected) :
      Writer Unit) >>= rest) post db := by
  unfold validateArgumentsLte
  split
  · rename_i many
    exact Program.ensures_throw (fails _ many)
  · rename_i enough
    exact succeeds (Nat.le_of_not_lt enough)

/-- An argument that is read. -/
theorem ensures_valid
    {read : Except ε α} {message : String} {rest : α → Writer β}
    (fails : ∀ reply error, read = .error error → post (.error reply) db)
    (succeeds : ∀ value, read = .ok value →
      Ensures env (rest value) post db) :
    Ensures env ((liftM (tryValidate read message) : Writer α) >>= rest)
      post db := by
  cases read with
  | ok value => exact succeeds value rfl
  | error error => exact Program.ensures_throw (fails _ error rfl)

end Validation

namespace Command

omit [Platform] in
theorem getVec_eq_ok
    {argv : Arguments} {pos : Nat} {argument : Bytes}
    (given : argv.getVec pos = .ok argument) :
    argv[pos]? = some argument := by
  unfold Arguments.getVec at given
  split at given
  · rename_i found present
    cases given
    exact present
  · cases given

omit [Platform] in
theorem tryValidate_eq_ok
    {ε α : Type} {read : Except ε α} {message : String} {value : α}
    (valid : tryValidate read message = .ok value) : read = .ok value := by
  cases read with
  | ok found =>
      cases valid
      rfl
  | error error => cases valid

end Command

/-! ## Calling a method -/

section Methods

variable {α β : Type} {env : Env} {db : Database} {index : Nat}
  {key : Bytes} {method : Value → Option (Value.Change α)}
  {post : Except Response β → Database → Prop}

/-- A method on the value of a key, if there is one. -/
theorem ensures_mutThen
    {rest : Option (Operation α) → Writer β}
    (missing : ∀ after, db.visible env (index, key) = none →
      Frame db after → Silent db after → SameLive env db after →
      Ensures env (rest none) post after)
    (found : ∀ value answer changed after,
      db.lapsed env (index, key) = false →
      db.value (index, key) = some value →
      method value = some (answer, changed) →
      Sets db after (index, key) (some changed)
        (db.expiration (index, key)) →
      Silent db after →
      Ensures env (rest (some answer)) post after) :
    Ensures env (mutThen index key method >>= rest) post db := by
  unfold mutThen
  rw [bind_assoc]
  refine ensures_getMut ?_
  intro middle inside got
  obtain ⟨-, frame, silent, live, present⟩ := getMut_live got
  cases visible : db.visible env (index, key) with
  | none => exact missing middle visible frame silent live
  | some value =>
      obtain ⟨kept, alive, stored⟩ := present value visible
      dsimp only
      rw [bind_assoc]
      refine Program.ensures_orPanic_bind ?_
      rintro ⟨answer, changed⟩ called
      dsimp only
      rw [bind_assoc]
      refine ensures_put ?_
      intro _
      refine found value answer changed _ alive stored called ?_
        (silent.trans (put_silent middle index key changed))
      have puts := put_sets middle index key changed
      refine ⟨frame.trans puts.frame, ?_, ?_⟩
      · intro other
        rw [puts.value, kept.value]
      · intro other
        rw [puts.expiration, kept.expiration]

/-- A method on the value of a key that is created if need be. -/
theorem ensures_createThen
    {rest : Operation α → Writer β}
    (step : ∀ answer changed after,
      method ((db.value (index, key)).getD .nil) = some (answer, changed) →
      Creates env db after (index, key) changed →
      (db.creationEvicts env index key = false →
        Sets db after (index, key) (some changed)
          (db.keptExpiration env (index, key))) →
      Ensures env (rest answer) post after) :
    Ensures env (createThen index key method >>= rest) post db := by
  unfold createThen
  rw [bind_assoc]
  refine ensures_getOrCreate ?_
  intro value created creation
  obtain ⟨isValue, creates⟩ := getOrCreate_creates creation
  rw [bind_assoc]
  refine Program.ensures_orPanic_bind ?_
  rintro ⟨answer, changed⟩ called
  dsimp only
  rw [bind_assoc]
  refine ensures_put ?_
  intro inside
  have puts := put_sets created index key changed
  refine step answer changed _ (isValue ▸ called) (creates.put changed) ?_
  · intro spare
    have sets := getOrCreate_sets spare creation
    rw [sets.expiration_self] at puts
    exact sets.trans puts

end Methods

/-- The update of a key whose value is not empty. -/
theorem keyUpdated_stays
    {env : Env} {db after : Database} {index : Nat} {key : Bytes}
    {value : Value} (held : db.value (index, key) = some value)
    (stays : value.isEmpty = false)
    (updated : db.keyUpdated env index key = some after) :
    after.value (index, key) = some value ∧
      after.expiration (index, key) = db.expiration (index, key) := by
  obtain ⟨sets, -⟩ := keyUpdated_spec updated
  have vanishing : db.vanishing (index, key) = false := by
    unfold Database.vanishing
    rw [held]
    exact stays
  rw [sets.value_self, sets.expiration_self, surviving, surviving, vanishing]
  exact ⟨held, rfl⟩

end RedVector
