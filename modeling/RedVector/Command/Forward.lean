import RedVector.Command.Present
import RedVector.Database.Creation

/-!
# Programs that go on

Each rule says with which state a program goes on behind an operation, so that
a handler is followed from its first operation to its reply.  Without a memory
limit the only operation that may panic is the removal of an expired key that
cannot be announced.
-/

namespace RedVector

open Util Effect Database

variable [Platform]

namespace Database

variable {env : Env} {db : Database} {index : Nat} {key : Bytes}

theorem getOrCreate_unlimited (env : Env) (index : Nat) (key : Bytes)
    (unlimited : db.config.maxmemory = none) :
    ∃ after, db.getOrCreate env index key =
        some ((db.value (index, key)).getD .nil, after) ∧
      Sets db after (index, key)
        (some ((db.value (index, key)).getD .nil))
        (db.keptExpiration env (index, key)) := by
  have spare : db.creationEvicts env index key = false := by
    unfold creationEvicts evicts
    rw [unlimited]
    simp
  have total : ∃ made, db.getOrCreate env index key = some made := by
    have same : (db.forgotten env index key).config.maxmemory = none := by
      rw [(forgotten_sets env db index key).1.frame.config, unlimited]
    have evicted : (db.forgotten env index key).evictKeys env index
        (estimateValueSize .nil key.length) =
          some (true, db.forgotten env index key) := by
      unfold evictKeys
      rw [same]
    unfold getOrCreate
    rw [show (if db.isExpired env index key then
      (db.removeMsexpiration index key).2 else db) =
        db.forgotten env index key from rfl]
    dsimp only
    cases held : ((db.forgotten env index key).data index).lookup key with
    | some value =>
        simp [held]
    | none =>
        simp [held, evicted]
  obtain ⟨⟨value, after⟩, created⟩ := total
  obtain ⟨rfl, -⟩ := getOrCreate_creates created
  exact ⟨after, created, getOrCreate_sets spare created⟩

theorem keyUpdated_alive (alive : db.lapsed env (index, key) = false) :
    ∃ after, db.keyUpdated env index key = some after ∧
      Sets db after (index, key)
        (db.surviving (index, key) (db.value (index, key)))
        (db.surviving (index, key) (db.expiration (index, key))) := by
  have live : ¬db.isExpired env index key = true :=
    Bool.eq_false_iff.mp alive
  have total : ∃ after, db.keyUpdated env index key = some after := by
    simp only [Database.keyUpdated, remove, if_neg live]
    split
    · exact ⟨_, rfl⟩
    · exact ⟨_, rfl⟩
  obtain ⟨after, updated⟩ := total
  exact ⟨after, updated, (keyUpdated_spec updated).1⟩

end Database

namespace Command

variable {α β : Type} {env : Env} {db : Database} {index : Nat}
  {key : Bytes}

theorem performs (inside : db.inBounds index = true)
    {answer : Option α} : db.checked index answer = answer :=
  if_pos inside

theorem run_op_panics
    {op : WriteOp} (performed : db.perform env op = none)
    (rest : op.Ret → Writer β) :
    ((.call op .pure : Writer op.Ret) >>= rest).run (machine env) db =
      none := by
  rw [Program.call_bind, Program.run_call]
  show (db.perform env op).bind _ = _
  rw [performed]
  rfl

theorem run_visible (inside : db.inBounds index = true)
    (rest : Option Value → Writer β) :
    ((liftM (Db.get index key) : Writer (Option Value)) >>= rest).run
        (machine env) db =
      (rest (db.visible env (index, key))).run (machine env) db := by
  have read : db.checked index (some (db.visible env (index, key))) =
      some (db.visible env (index, key)) := performs inside
  have performed : db.perform env (.read (.get index key)) =
      some (db.visible env (index, key), db) :=
    congrArg (Option.map fun answer => (answer, db)) read
  exact run_op performed _

theorem run_getMut (inside : db.inBounds index = true)
    (alive : db.lapsed env (index, key) = false)
    (rest : Option Value → Writer β) :
    (Db.getMut index key >>= rest).run (machine env) db =
      (rest (db.value (index, key))).run (machine env)
        (db.updateLru env index key) := by
  have live : ¬db.isExpired env index key = true :=
    Bool.eq_false_iff.mp alive
  have performed : db.perform env (.getMut index key) =
      some (db.value (index, key), db.updateLru env index key) := by
    show db.checked index (db.getMut env index key) = _
    rw [performs inside, Database.getMut, if_neg live]
    rfl
  exact run_op performed _

theorem run_getMut_lapsed (inside : db.inBounds index = true)
    (lapsed : db.lapsed env (index, key) = true)
    (rest : Option Value → Writer β) :
    (Db.getMut index key >>= rest).run (machine env) db = none ∧
        db.notifyKeyspaceEvent env index (text "expired") key 120 = none ∨
      (db.notifyKeyspaceEvent env index (text "expired") key 120).isSome ∧
        ∃ after, SameLive env db after ∧
          (Db.getMut index key >>= rest).run (machine env) db =
            (rest none).run (machine env) after := by
  have announced := getMut_lapsed lapsed
  cases got : db.getMut env index key with
  | none =>
      left
      rw [got] at announced
      have silent : db.notifyKeyspaceEvent env index (text "expired") key
          120 = none := by
        simpa using announced.symm
      have performed : db.perform env (.getMut index key) = none := by
        show db.checked index (db.getMut env index key) = _
        rw [performs inside, got]
        rfl
      exact ⟨run_op_panics performed _, silent⟩
  | some answer =>
      right
      obtain ⟨value, after⟩ := answer
      rw [got] at announced
      obtain ⟨found, -, -, live, -⟩ := getMut_live got
      have nothing : value = none := by
        rw [found, Database.visible, if_pos lapsed]
      subst nothing
      refine ⟨announced.symm, after, live, ?_⟩
      have performed : db.perform env (.getMut index key) =
          some (none, after) := by
        show db.checked index (db.getMut env index key) = _
        rw [performs inside, got]
      exact run_op performed _

theorem run_put (inside : db.inBounds index = true) (value : Value)
    (rest : Unit → Writer β) :
    (Db.put index key value >>= rest).run (machine env) db =
      (rest ()).run (machine env) (db.put index key value) := by
  have performed : db.perform env (.put index key value) =
      some ((), db.put index key value) :=
    performs inside
  exact run_op performed _

/-- A method on a key that is created if need be. -/
theorem run_createThen (env : Env) (inside : db.inBounds index = true)
    (unlimited : db.config.maxmemory = none)
    (method : Value → Option (Value.Change α)) {answer : Operation α}
    {changed : Value}
    (called : method ((db.value (index, key)).getD .nil) =
      some (answer, changed))
    (rest : Operation α → Writer β) :
    ∃ after,
      (createThen index key method >>= rest).run (machine env) db =
          (rest answer).run (machine env) after ∧
        Sets db after (index, key) (some changed)
          (db.keptExpiration env (index, key)) := by
  obtain ⟨between, created, sets⟩ :=
    getOrCreate_unlimited env index key unlimited
  have within : between.inBounds index = true := by
    unfold inBounds
    rw [sets.frame.config]
    exact inside
  have performed : db.perform env (.getOrCreate index key) =
      some ((db.value (index, key)).getD .nil, between) := by
    show db.checked index (db.getOrCreate env index key) = _
    rw [performs inside, created]
  have puts := put_sets between index key changed
  rw [sets.expiration_self] at puts
  refine ⟨_, ?_, sets.trans puts⟩
  unfold createThen
  rw [bind_assoc]
  refine (run_op performed _).trans ?_
  rw [bind_assoc, called]
  show Program.run _ ((Db.put index key changed >>= fun _ => _) >>= _) _ = _
  rw [bind_assoc]
  exact run_put within changed _

theorem run_keyUpdated (inside : db.inBounds index = true)
    (alive : db.lapsed env (index, key) = false)
    (rest : Unit → Writer β) :
    ∃ after,
      (Db.keyUpdated index key >>= rest).run (machine env) db =
          (rest ()).run (machine env) after ∧
        Sets db after (index, key)
          (db.surviving (index, key) (db.value (index, key)))
          (db.surviving (index, key) (db.expiration (index, key))) := by
  obtain ⟨after, updated, sets⟩ := keyUpdated_alive alive
  refine ⟨after, ?_, sets⟩
  have performed : db.perform env (.keyUpdated index key) =
      some ((), after) := by
    show db.checked index (silently _) = _
    rw [performs inside, updated]
    rfl
  exact run_op performed _

/-- A method on a key that has expired. -/
theorem run_mutThen_lapsed (inside : db.inBounds index = true)
    (lapsed : db.lapsed env (index, key) = true)
    (method : Value → Option (Value.Change α))
    (rest : Option (Operation α) → Writer β) :
    (mutThen index key method >>= rest).run (machine env) db = none ∧
        db.notifyKeyspaceEvent env index (text "expired") key 120 = none ∨
      (db.notifyKeyspaceEvent env index (text "expired") key 120).isSome ∧
        ∃ after, SameLive env db after ∧
          (mutThen index key method >>= rest).run (machine env) db =
            (rest none).run (machine env) after := by
  unfold mutThen
  rw [bind_assoc]
  exact run_getMut_lapsed inside lapsed _

/-- A method on a key that does not exist. -/
theorem run_mutThen_absent (inside : db.inBounds index = true)
    (alive : db.lapsed env (index, key) = false)
    (absent : db.value (index, key) = none)
    (method : Value → Option (Value.Change α))
    (rest : Option (Operation α) → Writer β) :
    (mutThen index key method >>= rest).run (machine env) db =
      (rest none).run (machine env) (db.updateLru env index key) := by
  unfold mutThen
  rw [bind_assoc, run_getMut inside alive, absent]
  rfl

/-- What is written behind a look-up is written to the state in front of
it. -/
theorem sets_after {before middle after : Database} {slot : Slot}
    {value : Option Value} {expiration : Option Int}
    (sets : Sets middle after slot value expiration)
    (kept : Kept before middle) :
    Sets before after slot value expiration := by
  refine ⟨kept.frame.trans sets.frame, ?_, ?_⟩
  · intro other
    rw [sets.value, kept.value]
  · intro other
    rw [sets.expiration, kept.expiration]

/-- A method on the value of a key. -/
theorem run_mutThen (inside : db.inBounds index = true)
    (alive : db.lapsed env (index, key) = false) {value : Value}
    (stored : db.value (index, key) = some value)
    (method : Value → Option (Value.Change α)) {answer : Operation α}
    {changed : Value} (called : method value = some (answer, changed))
    (rest : Option (Operation α) → Writer β) :
    ∃ after,
      (mutThen index key method >>= rest).run (machine env) db =
          (rest (some answer)).run (machine env) after ∧
        Sets db after (index, key) (some changed)
          (db.expiration (index, key)) := by
  have kept := updateLru_kept env db index key
  have within : (db.updateLru env index key).inBounds index = true := by
    unfold inBounds
    rw [kept.frame.config]
    exact inside
  have puts := put_sets (db.updateLru env index key) index key changed
  rw [kept.expiration] at puts
  refine ⟨_, ?_, sets_after puts kept⟩
  unfold mutThen
  rw [bind_assoc, run_getMut inside alive, stored]
  dsimp only
  rw [bind_assoc, called]
  show Program.run _ ((Db.put index key changed >>= fun _ => _) >>= _) _ = _
  rw [bind_assoc]
  exact run_put within changed _

end Command

end RedVector
