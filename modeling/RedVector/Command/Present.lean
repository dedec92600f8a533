import RedVector.Command.Lists
import RedVector.Database.Live

/-!
# Commands on a key that is there

On a key that is stored and not expired, the operations that may panic
elsewhere succeed, so that a command only does what its method says.
-/

namespace RedVector

open Util Effect Database

variable [Platform]

/-- What an update of its key leaves of a value. -/
def Value.stored (value : Value) : Option Value :=
  if value.isEmpty then none else some value

/-- Lists that are left alike are alike. -/
theorem Value.stored_list {first second : ValueList} :
    (Value.list first).stored = (Value.list second).stored ↔
      first = second := by
  constructor
  · intro same
    unfold stored isEmpty ValueList.llen at same
    cases first with
    | nil =>
        cases second with
        | nil => rfl
        | cons head tail => simp at same
    | cons head tail =>
        cases second with
        | nil => simp at same
        | cons other rest => simpa using same
  · intro same
    rw [same]

namespace Database

variable {env : Env} {db : Database} {index : Nat} {key : Bytes}

/-- A key of one of the databases holds a value and is not expired. -/
structure Present (env : Env) (db : Database) (index : Nat) (key : Bytes)
    (value : Value) : Prop where
  inside : db.inBounds index = true
  alive : db.lapsed env (index, key) = false
  held : db.value (index, key) = some value

theorem Present.visible
    {value : Value} (present : Present env db index key value) :
    db.visible env (index, key) = some value := by
  unfold Database.visible
  rw [present.alive]
  exact present.held

theorem Present.kept
    {after : Database} {value : Value}
    (present : Present env db index key value)
    (kept : Kept db after) : Present env after index key value := by
  refine ⟨?_, ?_, ?_⟩
  · unfold inBounds
    rw [kept.frame.config]
    exact present.inside
  · rw [lapsed_congr kept.frame.loading (congrFun kept.expiration _)]
    exact present.alive
  · rw [kept.value]
    exact present.held

theorem Present.put
    {value : Value} (present : Present env db index key value)
    (changed : Value) :
    Present env (db.put index key changed) index key changed := by
  have puts := put_sets db index key changed
  refine ⟨present.inside, ?_, puts.value_self⟩
  rw [lapsed_congr puts.frame.loading puts.expiration_self]
  exact present.alive

theorem Present.performPut
    {value : Value} (present : Present env db index key value)
    (changed : Value) :
    db.perform env (.put index key changed) =
      some ((), db.put index key changed) := by
  show db.checked index _ = _
  unfold checked
  rw [if_pos present.inside]
  rfl

theorem Present.get
    {value : Value} (present : Present env db index key value) :
    db.perform env (.read (.get index key)) = some (some value, db) := by
  have got : db.get env index key = some value := present.visible
  have read : db.checked index (some (db.get env index key)) =
      some (some value) := by
    unfold checked
    rw [if_pos present.inside, got]
  exact congrArg (Option.map fun answer => (answer, db)) read

theorem Present.getMut
    {value : Value} (present : Present env db index key value) :
    db.perform env (.getMut index key) =
      some (some value, db.updateLru env index key) := by
  have alive : ¬ db.isExpired env index key = true :=
    Bool.eq_false_iff.mp present.alive
  have held : (db.data index).lookup key = some value := present.held
  show db.checked index (db.getMut env index key) = _
  unfold checked Database.getMut
  rw [if_pos present.inside, if_neg alive, held]
  rfl

theorem Present.getOrCreate
    {value : Value} (present : Present env db index key value) :
    db.perform env (.getOrCreate index key) =
      some (value, db.updateLru env index key) := by
  have alive : ¬ db.isExpired env index key = true :=
    Bool.eq_false_iff.mp present.alive
  have held : (db.data index).lookup key = some value := present.held
  show db.checked index (db.getOrCreate env index key) = _
  unfold checked Database.getOrCreate
  dsimp only
  rw [if_pos present.inside, if_neg alive]
  simp [held]

/-- The update of a key that is there leaves its value unless it is empty. -/
theorem Present.keyUpdated
    {value : Value} (present : Present env db index key value) :
    ∃ after, db.perform env (.keyUpdated index key) = some ((), after) ∧
      after.value (index, key) = value.stored := by
  have alive : ¬ db.isExpired env index key = true :=
    Bool.eq_false_iff.mp present.alive
  have total : ∃ after, db.keyUpdated env index key = some after := by
    simp only [Database.keyUpdated, remove, if_neg alive]
    split
    · exact ⟨_, rfl⟩
    · exact ⟨_, rfl⟩
  obtain ⟨after, updated⟩ := total
  refine ⟨after, ?_, ?_⟩
  · show db.checked index (silently _) = _
    unfold checked
    rw [if_pos present.inside, updated]
    rfl
  · obtain ⟨sets, -⟩ := keyUpdated_spec updated
    rw [sets.value_self]
    unfold surviving vanishing
    rw [present.held]
    rfl

/-- An update that leaves its value leaves everything else. -/
theorem keyUpdated_announces
    (env : Env) (stays : db.vanishing (index, key) = false) :
    ∃ after, db.keyUpdated env index key = some after ∧
      after.value = db.value ∧ after.expiration = db.expiration ∧
      after.updates = (index, key) :: db.updates := by
  have total : ∃ after, db.keyUpdated env index key = some after := by
    have full : ((db.data index).lookup key).any Value.isEmpty = false :=
      stays
    simp only [Database.keyUpdated, full]
    exact ⟨_, rfl⟩
  obtain ⟨after, updated⟩ := total
  obtain ⟨sets, announces⟩ := keyUpdated_spec updated
  refine ⟨after, updated, ?_, ?_, announces.updates⟩
  · funext slot
    rw [sets.value]
    unfold surviving
    rw [stays, if_neg Bool.false_ne_true]
    split
    · rename_i same
      rw [same]
    · rfl
  · funext slot
    rw [sets.expiration]
    unfold surviving
    rw [stays, if_neg Bool.false_ne_true]
    split
    · rename_i same
      rw [same]
    · rfl

end Database

namespace Command

variable {α β : Type} {env : Env} {db : Database} {index : Nat}
  {key : Bytes} {value : Value}

/-- A program that begins with an operation whose answer is known. -/
theorem run_op
    {op : WriteOp} {answer : op.Ret} {after : Database}
    (performed : db.perform env op = some (answer, after))
    (rest : op.Ret → Writer β) :
    ((.call op .pure : Writer op.Ret) >>= rest).run (machine env) db =
      (rest answer).run (machine env) after := by
  rw [Program.call_bind, Program.run_call]
  show (db.perform env op).bind _ = _
  rw [performed]
  rfl

/-- A program that begins with reading a key that is there. -/
theorem run_get
    (present : Present env db index key value)
    (rest : Option Value → Reader β) :
    ((Db.get index key >>= rest).lift readInclusion).run (machine env) db =
      ((rest (some value)).lift readInclusion).run (machine env) db :=
  run_op present.get _

/-- A method on the value of a key that is there, with the update of the
key. -/
theorem mutAndUpdate_runs
    {method : Value → Option (Value.Change α)} {answer : Operation α}
    {changed : Value} (present : Present env db index key value)
    (called : method value = some (answer, changed)) (ok : α → Response)
    (missing : Response) :
    ∃ after,
      (mutAndUpdate index key method ok missing).run (machine env) db =
          some (.ok (respond answer ok), after) ∧
        after.value (index, key) = changed.stored := by
  have read := present.kept (updateLru_kept env db index key)
  obtain ⟨after, updated, left⟩ := (read.put changed).keyUpdated
  refine ⟨after, ?_, left⟩
  unfold mutAndUpdate mutThen
  rw [bind_assoc]
  refine (run_op present.getMut _).trans ?_
  dsimp only
  rw [bind_assoc, called]
  show Program.run _ ((Db.put index key changed >>= fun _ => _) >>= _) _ = _
  rw [bind_assoc]
  refine (run_op (read.performPut changed) _).trans ?_
  exact run_op updated _

/-- A method that panics. -/
theorem mutAndUpdate_panics
    {method : Value → Option (Value.Change α)}
    (present : Present env db index key value)
    (called : method value = none) (ok : α → Response)
    (missing : Response) :
    (mutAndUpdate index key method ok missing).run (machine env) db =
      none := by
  unfold mutAndUpdate mutThen
  rw [bind_assoc]
  refine (run_op present.getMut _).trans ?_
  dsimp only
  rw [bind_assoc, called]
  rfl

/-- A method on the value of a key that is there, in front of the rest of a
handler. -/
theorem createThen_bind
    {method : Value → Option (Value.Change α)}
    {answer : Operation α} {changed : Value}
    (present : Present env db index key value)
    (called : method value = some (answer, changed))
    (rest : Operation α → Writer β) :
    (createThen index key method >>= rest).run (machine env) db =
      (rest answer).run (machine env)
        ((db.updateLru env index key).put index key changed) := by
  have read := present.kept (updateLru_kept env db index key)
  unfold createThen
  rw [bind_assoc]
  refine (run_op present.getOrCreate _).trans ?_
  rw [bind_assoc, called]
  show Program.run _ ((Db.put index key changed >>= fun _ => _) >>= _) _ = _
  rw [bind_assoc]
  exact run_op (read.performPut changed) _

theorem createThen_present
    (present : Present env db index key value) (changed : Value) :
    Present env ((db.updateLru env index key).put index key changed) index
      key changed :=
  (present.kept (updateLru_kept env db index key)).put changed

/-- A method on the value of a key that is there, with the update of the key
whatever came of it. -/
theorem createThen_runs
    {method : Value → Option (Value.Change α)}
    {answer : Operation α} {changed : Value}
    (present : Present env db index key value)
    (called : method value = some (answer, changed))
    (reply : Operation α → Response) :
    ∃ after,
      (do
        let r ← createThen index key method
        Db.keyUpdated index key
        pure (reply r)).run (machine env) db =
          some (.ok (reply answer), after) ∧
        after.value (index, key) = changed.stored := by
  obtain ⟨after, updated, left⟩ :=
    (createThen_present present changed).keyUpdated
  refine ⟨after, ?_, left⟩
  rw [createThen_bind present called]
  exact run_op updated _

/-- A method that succeeds is followed by the update of the key. -/
theorem createThen_succeeds
    (method : Value → Option (Value.Change α)) {answer : α}
    {changed : Value} (present : Present env db index key value)
    (called : method value = some (.ok answer, changed))
    (ok : α → Response) :
    ∃ after,
      (do
        let r ← createThen index key method
        updateOnSuccess index key r ok).run (machine env) db =
          some (.ok (ok answer), after) ∧
        after.value (index, key) = changed.stored := by
  obtain ⟨after, updated, left⟩ :=
    (createThen_present present changed).keyUpdated
  refine ⟨after, ?_, left⟩
  rw [createThen_bind present called]
  exact run_op updated _

/-- A method that fails only leaves its value. -/
theorem createThen_fails
    (method : Value → Option (Value.Change α)) {error : OperationError}
    {changed : Value} (present : Present env db index key value)
    (called : method value = some (.error error, changed))
    (ok : α → Response) :
    ∃ after,
      (do
        let r ← createThen index key method
        updateOnSuccess index key r ok).run (machine env) db =
          some (.ok (.error error.message), after) ∧
        after.value (index, key) = some changed := by
  refine ⟨_, ?_, (createThen_present present changed).held⟩
  rw [createThen_bind present called]
  rfl

end Command

end RedVector
