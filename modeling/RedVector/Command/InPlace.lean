import RedVector.Command.Effects
import RedVector.Command.Specs

/-!
# Updates in place

The handlers that update the value of a key through a reference to it.  A slot
that is stored when they refer to it keeps its expiration, until the update of
an empty value removes it.
-/

namespace RedVector.Command

open Util Effect Database

variable [Platform]

/-- The slot holds nothing, or it has the expiration, which has not lapsed. -/
def Retains (env : Env) (slot : Slot) (expiration : Option Int)
    (db : Database) : Prop :=
  db.value slot = none ∨
    db.expiration slot = expiration ∧ db.lapsed env slot = false

section Retains

variable {env : Env} {slot : Slot} {expiration : Option Int}
  {before after : Database}

theorem Retains.congr
    (retains : Retains env slot expiration before)
    (frame : Frame before after)
    (value : after.value slot = before.value slot)
    (same : after.expiration slot = before.expiration slot) :
    Retains env slot expiration after := by
  unfold Retains
  rw [value, same, lapsed_congr frame.loading same]
  exact retains

theorem Retains.kept
    (retains : Retains env slot expiration before)
    (kept : Kept before after) : Retains env slot expiration after :=
  retains.congr kept.frame (congrFun kept.value slot)
    (congrFun kept.expiration slot)

theorem Retains.other
    {changed : Slot} {value : Option Value} {time : Option Int}
    (retains : Retains env slot expiration before)
    (sets : Sets before after changed value time)
    (different : slot ≠ changed) : Retains env slot expiration after := by
  apply retains.congr sets.frame
  · rw [sets.value, if_neg different]
  · rw [sets.expiration, if_neg different]

/-- An operation may write the value of a slot, or empty the slot. -/
theorem Retains.written
    {changed : Slot} {value : Option Value}
    (retains : Retains env slot expiration before)
    (sets : Sets before after changed value (before.expiration changed))
    (stored : slot = changed → before.value slot ≠ none) :
    Retains env slot expiration after := by
  by_cases same : slot = changed
  · subst same
    right
    rcases retains with gone | ⟨kept, alive⟩
    · exact absurd gone (stored rfl)
    · have unchanged := sets.expiration_self
      rw [unchanged, lapsed_congr sets.frame.loading unchanged]
      exact ⟨kept, alive⟩
  · exact retains.other sets same

theorem Retains.emptied
    {changed : Slot}
    (retains : Retains env slot expiration before)
    (sets : Sets before after changed none none) :
    Retains env slot expiration after := by
  by_cases same : slot = changed
  · subst same
    exact .inl sets.value_self
  · exact retains.other sets same

end Retains

/-- From a state in which the slot retains the expiration, and holds a value
if it must be `stored`, the program ends in one in which the slot retains the
expiration. -/
def Tracks {α : Type} (env : Env) (slot : Slot) (expiration : Option Int)
    (stored : Prop) (program : Writer α) : Prop :=
  ∀ db, Retains env slot expiration db → (stored → db.value slot ≠ none) →
    Ensures env program
      (fun _ after => Retains env slot expiration after) db

section Rules

variable {α β : Type} {env : Env} {slot : Slot} {expiration : Option Int}
  {stored : Prop} {index : Nat} {key : Bytes}

theorem Tracks.weaken
    {program : Writer α} {required : Prop}
    (tracks : Tracks env slot expiration required program)
    (enough : required → stored) :
    Tracks env slot expiration stored program := by
  intro db retains holds
  apply tracks db retains
  intro needed
  exact holds (enough needed)

/-- What follows a program must not need the slot to be stored. -/
theorem tracks_then
    {program : Writer α} {rest : α → Writer β}
    (first : Tracks env slot expiration stored program)
    (next : ∀ value, Tracks env slot expiration False (rest value)) :
    Tracks env slot expiration stored (program >>= rest) := by
  intro db retains holds
  refine Program.ensures_bind ?_
  refine Program.Ensures.mono (first db retains holds) ?_
  intro result between still
  cases result with
  | ok value => exact next value between still False.elim
  | error reply => exact still

theorem tracks_pure (value : α) :
    Tracks env slot expiration stored (pure value : Writer α) := by
  intro db retains _
  exact Program.ensures_pure retains

theorem tracks_throw (reply : Response) :
    Tracks env slot expiration stored (throw reply : Writer α) := by
  intro db retains _
  exact Program.ensures_throw retains

/-- What is computed without an operation. -/
theorem tracks_except
    {computed : Except Response α} {rest : α → Writer β}
    (next : ∀ value, Tracks env slot expiration stored (rest value)) :
    Tracks env slot expiration stored
      ((liftM computed : Writer α) >>= rest) := by
  intro db retains holds
  refine Program.ensures_ofExcept_bind ?_ ?_
  · intro reply _
    exact retains
  · intro value _
    exact next value db retains holds

theorem tracks_orPanic
    {computed : Option α} {rest : α → Writer β}
    (next : ∀ value, Tracks env slot expiration stored (rest value)) :
    Tracks env slot expiration stored (orPanic computed >>= rest) := by
  intro db retains holds
  refine Program.ensures_orPanic_bind ?_
  intro value _
  exact next value db retains holds

theorem tracks_reader
    {program : Reader α} {rest : α → Writer β}
    (next : ∀ value, Tracks env slot expiration stored (rest value)) :
    Tracks env slot expiration stored
      ((liftM program : Writer α) >>= rest) := by
  intro db retains holds
  refine ensures_reader ?_ ?_
  · intro reply _
    exact retains
  · intro value _
    exact next value db retains holds

/-- An operation that only keeps books. -/
theorem tracks_op
    (op : WriteOp) {rest : op.Ret → Writer β}
    (keeps : ∀ {db answer after},
      db.perform env op = some (answer, after) → Kept db after)
    (next : ∀ answer, Tracks env slot expiration stored (rest answer)) :
    Tracks env slot expiration stored
      ((.call op .pure : Writer op.Ret) >>= rest) := by
  intro db retains holds
  refine ensures_op op ?_
  intro answer after performed
  have kept := keeps performed
  refine next answer after (retains.kept kept) ?_
  rw [kept.value]
  exact holds

/-- A slot that is stored and retains its expiration has not lapsed, so it is
not removed. -/
theorem getMut_retains
    {db after : Database} {result : Option Value}
    (retains : Retains env slot expiration db)
    (got : db.getMut env index key = some (result, after)) :
    Retains env slot expiration after ∧
      (db.value slot ≠ none → after.value slot ≠ none) ∧
      ∀ value, result = some value → after.value (index, key) ≠ none := by
  obtain ⟨found, spec⟩ := getMut_spec got
  split at spec
  · rename_i lapsed
    refine ⟨retains.emptied spec.1, ?_, ?_⟩
    · intro present
      have different : slot ≠ (index, key) := by
        intro same
        rcases retains with gone | ⟨-, alive⟩
        · exact present gone
        · rw [same, lapsed] at alive
          cases alive
      rw [spec.1.value, if_neg different]
      exact present
    · intro value isSome
      rw [found, visible, if_pos lapsed] at isSome
      cases isSome
  · rename_i alive
    refine ⟨retains.kept spec, ?_, ?_⟩
    · rw [spec.value]
      exact id
    · intro value isSome
      rw [found, visible, if_neg alive] at isSome
      rw [spec.value, isSome]
      exact Option.some_ne_none value

theorem tracks_getMut
    {rest : Option Value → Writer β}
    (next : ∀ value, Tracks env slot expiration stored (rest value)) :
    Tracks env slot expiration stored (Db.getMut index key >>= rest) := by
  intro db retains holds
  refine ensures_getMut ?_
  intro after inside got
  obtain ⟨still, present, -⟩ := getMut_retains retains got
  exact next _ after still fun needed => present (holds needed)

theorem tracks_put
    {value : Value} {rest : Unit → Writer β}
    (own : slot = (index, key) → stored)
    (next : Tracks env slot expiration stored (rest ())) :
    Tracks env slot expiration stored (Db.put index key value >>= rest) := by
  intro db retains holds
  refine ensures_put ?_
  intro inside
  have puts := put_sets db index key value
  apply next
  · exact retains.written puts fun same => holds (own same)
  · intro needed
    rw [puts.value]
    split
    · exact Option.some_ne_none value
    · exact holds needed

/-- Another slot may be evicted when a key is created. -/
theorem tracks_getOrCreate
    {rest : Value → Writer β} (own : slot = (index, key) → stored)
    (next : ∀ value,
      Tracks env slot expiration (slot = (index, key)) (rest value)) :
    Tracks env slot expiration stored
      (Db.getOrCreate index key >>= rest) := by
  intro db retains holds
  refine ensures_getOrCreate ?_
  intro value after created
  obtain ⟨-, creates⟩ := getOrCreate_creates created
  apply next
  · by_cases same : slot = (index, key)
    · right
      rcases retains with gone | ⟨kept, alive⟩
      · exact absurd gone (holds (own same))
      · have unchanged : after.expiration slot = db.expiration slot := by
          rw [same, creates.expiration, keptExpiration, ← same, alive]
          rfl
        rw [unchanged, lapsed_congr creates.frame.loading unchanged]
        exact ⟨kept, alive⟩
    · rcases creates.others slot same with ⟨value, unchanged⟩ | gone
      · exact retains.congr creates.frame value unchanged
      · exact .inl gone.1
  · intro same
    rw [same, creates.value]
    exact Option.some_ne_none value

theorem tracks_keyUpdated
    {rest : Unit → Writer β}
    (next : Tracks env slot expiration False (rest ())) :
    Tracks env slot expiration stored (Db.keyUpdated index key >>= rest) := by
  intro db retains holds
  refine ensures_keyUpdated ?_
  intro after updated
  obtain ⟨sets, -⟩ := keyUpdated_spec updated
  refine next after ?_ False.elim
  unfold surviving at sets
  split at sets
  · exact retains.emptied sets
  · by_cases same : slot = (index, key)
    · subst same
      apply retains.congr sets.frame
      · exact sets.value_self
      · exact sets.expiration_self
    · exact retains.other sets same

/-! ## Parts of handlers -/

theorem tracks_createThen
    {method : Value → Option (Value.Change α)}
    {rest : Operation α → Writer β} (own : slot = (index, key) → stored)
    (next : ∀ result,
      Tracks env slot expiration (slot = (index, key)) (rest result)) :
    Tracks env slot expiration stored
      (createThen index key method >>= rest) := by
  unfold createThen
  rw [bind_assoc]
  apply tracks_getOrCreate own
  intro value
  rw [bind_assoc]
  apply tracks_orPanic
  intro ended
  dsimp only
  rw [bind_assoc]
  apply tracks_put id
  exact next ended.1

/-- A method is only called on a value that is there. -/
theorem tracks_mutThen
    {method : Value → Option (Value.Change α)}
    {rest : Option (Operation α) → Writer β}
    (next : ∀ result, Tracks env slot expiration stored (rest result)) :
    Tracks env slot expiration stored
      (mutThen index key method >>= rest) := by
  intro db retains holds
  unfold mutThen
  rw [bind_assoc]
  refine ensures_getMut ?_
  intro middle inside got
  obtain ⟨still, present, found⟩ := getMut_retains retains got
  have holds : stored → middle.value slot ≠ none := fun needed =>
    present (holds needed)
  cases visible : db.visible env (index, key) with
  | none => exact next none middle still holds
  | some value =>
      dsimp only
      have calls : Tracks env slot expiration
          (stored ∨ slot = (index, key)) (do
            let ended ← orPanic (method value)
            Db.put index key ended.2
            rest (some ended.1)) := by
        apply tracks_orPanic
        intro ended
        apply tracks_put .inr
        exact (next (some ended.1)).weaken .inl
      rw [bind_assoc]
      simp only [bind_assoc]
      apply calls middle still
      rintro (needed | same)
      · exact holds needed
      · rw [same]
        exact found value visible

theorem tracks_updateOnSuccess
    {result : Operation α} {ok : α → Response} :
    Tracks env slot expiration stored
      (updateOnSuccess index key result ok) := by
  unfold updateOnSuccess
  split
  · apply tracks_keyUpdated
    exact tracks_pure _
  · exact tracks_pure _

/-- An update that is announced whatever the method answers. -/
theorem tracks_announced
    {result : Response} :
    Tracks env slot expiration stored (do
      Db.keyUpdated index key
      pure result) := by
  apply tracks_keyUpdated
  exact tracks_pure result

theorem tracks_mutAndUpdate
    {method : Value → Option (Value.Change α)} {ok : α → Response}
    {missing : Response} :
    Tracks env slot expiration stored
      (mutAndUpdate index key method ok missing) := by
  unfold mutAndUpdate
  apply tracks_mutThen
  intro result
  apply tracks_keyUpdated
  cases result with
  | none => exact tracks_pure missing
  | some answer => exact tracks_pure _

theorem tracks_updateOnCount {result : Operation Nat} :
    Tracks env slot expiration stored (updateOnCount index key result) := by
  unfold updateOnCount
  split
  · exact tracks_pure _
  · split
    · apply tracks_keyUpdated
      exact tracks_pure _
    · exact tracks_pure _

end Rules

/-! ## The handlers -/

section Handlers

variable {env : Env} {slot : Slot} {expiration : Option Int}
  {argv : Arguments} {dbindex : Nat}

theorem append_tracks :
    Tracks env slot expiration True (append argv dbindex) := by
  unfold append
  apply tracks_except
  intro _
  apply tracks_except
  intro key
  apply tracks_except
  intro val
  apply tracks_getOrCreate fun _ => trivial
  intro oldval
  split
  · exact tracks_pure _
  · apply tracks_except
    intro _
    apply tracks_put id
    exact tracks_announced

theorem setrange_tracks :
    Tracks env slot expiration True (setrange argv dbindex) := by
  unfold setrange
  apply tracks_except
  intro _
  apply tracks_except
  intro key
  apply tracks_except
  intro index
  split
  · exact tracks_pure _
  · apply tracks_except
    intro value
    apply tracks_reader
    intro found
    split
    · exact tracks_pure _
    · apply tracks_getOrCreate fun _ => trivial
      intro oldval
      apply tracks_orPanic
      intro length
      apply tracks_except
      intro _
      apply tracks_put id
      exact tracks_announced

theorem setbit_tracks :
    Tracks env slot expiration True (setbit argv dbindex) := by
  unfold setbit
  apply tracks_except
  intro _
  apply tracks_except
  intro key
  apply tracks_except
  intro index
  apply tracks_except
  intro _
  apply tracks_except
  intro value
  apply tracks_except
  intro _
  apply tracks_createThen fun _ => trivial
  intro result
  exact tracks_announced

theorem genericIncr_tracks (increment : Int) :
    Tracks env slot expiration True (genericIncr argv dbindex increment) := by
  unfold genericIncr
  apply tracks_except
  intro key
  apply tracks_createThen fun _ => trivial
  intro result
  exact tracks_announced

theorem incr_tracks :
    Tracks env slot expiration True (incr argv dbindex) := by
  unfold incr
  apply tracks_except
  intro _
  exact genericIncr_tracks 1

theorem decr_tracks :
    Tracks env slot expiration True (decr argv dbindex) := by
  unfold decr
  apply tracks_except
  intro _
  exact genericIncr_tracks (-1)

theorem incrby_tracks :
    Tracks env slot expiration True (incrby argv dbindex) := by
  unfold incrby
  apply tracks_except
  intro _
  split
  · exact genericIncr_tracks _
  · exact tracks_pure _

theorem decrby_tracks :
    Tracks env slot expiration True (decrby argv dbindex) := by
  unfold decrby
  apply tracks_except
  intro _
  split
  · apply tracks_orPanic
    intro increment
    exact genericIncr_tracks increment
  · exact tracks_pure _

theorem incrbyfloat_tracks :
    Tracks env slot expiration True (incrbyfloat argv dbindex) := by
  unfold incrbyfloat
  apply tracks_except
  intro _
  apply tracks_except
  intro key
  apply tracks_except
  intro increment
  apply tracks_createThen fun _ => trivial
  intro result
  exact tracks_announced

theorem pfadd_tracks :
    Tracks env slot expiration True (pfadd argv dbindex) := by
  unfold pfadd
  apply tracks_except
  intro _
  apply tracks_except
  intro key
  apply tracks_createThen fun _ => trivial
  intro result
  exact tracks_announced

theorem pfmerge_tracks :
    Tracks env slot expiration True (pfmerge argv dbindex) := by
  unfold pfmerge
  apply tracks_except
  intro _
  apply tracks_except
  intro key
  apply tracks_reader
  intro found
  have merges : ∀ val : Value, Tracks env slot expiration True
      (mergeSketches argv dbindex key val) := by
    intro val
    apply tracks_reader
    intro values
    apply tracks_orPanic
    intro merged
    apply tracks_getOrCreate fun _ => trivial
    intro old
    apply tracks_put id
    exact tracks_announced
  cases found with
  | none => exact merges .nil
  | some value =>
      apply tracks_except
      intro bytes
      exact merges _

theorem bfReserve_tracks :
    Tracks env slot expiration True (bfReserve argv dbindex) := by
  unfold bfReserve
  apply tracks_except
  intro _
  apply tracks_except
  intro key
  apply tracks_except
  intro errorRate
  apply tracks_except
  intro capacity
  split
  · exact tracks_pure _
  · apply tracks_createThen fun _ => trivial
    intro result
    exact tracks_updateOnSuccess

theorem bfAdd_tracks :
    Tracks env slot expiration True (bfAdd argv dbindex) := by
  unfold bfAdd
  apply tracks_except
  intro _
  apply tracks_except
  intro key
  apply tracks_except
  intro item
  apply tracks_createThen fun _ => trivial
  intro result
  exact tracks_updateOnSuccess

theorem bfMadd_tracks :
    Tracks env slot expiration True (bfMadd argv dbindex) := by
  unfold bfMadd
  apply tracks_except
  intro _
  apply tracks_except
  intro key
  apply tracks_createThen fun _ => trivial
  intro result
  exact tracks_updateOnSuccess

/-! ### Lists -/

/-- The values are pushed on a key that is stored after the first of them. -/
theorem tracks_pushAll
    {key : Bytes} {right create : Bool} {vals : List Bytes} {r : Response}
    {rest : Response → Writer Response}
    (next : ∀ r,
      Tracks env slot expiration (slot = (dbindex, key)) (rest r)) :
    Tracks env slot expiration (slot = (dbindex, key))
      (pushAll dbindex key right create vals r >>= rest) := by
  induction vals generalizing r with
  | nil => exact next r
  | cons val vals ih =>
      have pushed : ∀ pushed : Option (Operation Nat),
          Tracks env slot expiration (slot = (dbindex, key))
            (pushed.elim (throw (.integer 0)) (fun result =>
              pushAll dbindex key right create vals
                (respond result fun length => .integer length)) >>=
              rest) := by
        intro pushed
        cases pushed with
        | none => exact tracks_throw _
        | some result => exact ih
      unfold pushAll
      cases create with
      | true =>
          simp only [if_true, map_eq_pure_bind, bind_assoc]
          apply tracks_createThen id
          intro result
          exact pushed (some result)
      | false =>
          simp only [Bool.false_eq_true, if_false, bind_assoc]
          apply tracks_mutThen
          intro result
          cases result with
          | none => exact pushed none
          | some result => exact pushed (some result)

theorem genericPush_tracks (right create : Bool) :
    Tracks env slot expiration True
      (genericPush argv dbindex right create) := by
  unfold genericPush
  apply tracks_except
  intro _
  apply tracks_except
  intro key
  refine (tracks_pushAll ?_).weaken fun _ => trivial
  intro r
  exact tracks_announced

theorem genericPop_tracks (right : Bool) :
    Tracks env slot expiration True (genericPop argv dbindex right) := by
  unfold genericPop
  apply tracks_except
  intro _
  apply tracks_except
  intro key
  exact tracks_mutAndUpdate

/-- The destination may evict the source, which is then only announced. -/
theorem tracks_moveElement (source destination : Bytes) :
    Tracks env slot expiration True
      (moveElement dbindex source destination) := by
  unfold moveElement
  apply tracks_getMut
  intro found
  split
  · exact tracks_pure _
  · split
    · apply tracks_put fun _ => trivial
      split
      · exact tracks_pure _
      · exact tracks_pure _
      · apply tracks_createThen fun _ => trivial
        intro pushed
        split
        · exact tracks_pure _
        · apply tracks_keyUpdated
          exact tracks_announced
    · exact tracks_pure _

theorem genericRpoplpush_tracks (source destination : Bytes) :
    Tracks env slot expiration True
      (genericRpoplpush dbindex source destination) := by
  unfold genericRpoplpush
  apply tracks_reader
  intro found
  split
  · split
    · exact tracks_moveElement source destination
    · exact tracks_throw _
  · exact tracks_moveElement source destination

theorem rpoplpush_tracks :
    Tracks env slot expiration True (rpoplpush argv dbindex) := by
  unfold rpoplpush
  apply tracks_except
  intro _
  apply tracks_except
  intro source
  apply tracks_except
  intro destination
  exact genericRpoplpush_tracks source destination

/-! ### Blocking commands -/

theorem tracks_subscribes
    {stored : Prop} {mailbox : Nat} {keys : List Bytes}
    {rest : Unit → Writer Answer}
    (next : Tracks env slot expiration stored (rest ())) :
    Tracks env slot expiration stored
      ((keys.forM fun key => do
        let _ ← Db.keySubscribe dbindex key mailbox) >>= rest) := by
  induction keys with
  | nil => exact next
  | cons key keys ih =>
      have first : Tracks env slot expiration stored
          (Db.keySubscribe dbindex key mailbox >>= fun _ =>
            (keys.forM fun key => do
              let _ ← Db.keySubscribe dbindex key mailbox) >>= rest) := by
        apply tracks_op (.keySubscribe dbindex key mailbox)
        · intro db answer after performed
          obtain ⟨-, subscribed⟩ := checked_eq_some.mp performed
          cases subscribed
          exact keySubscribe_kept db dbindex key mailbox
        · exact fun _ => ih
      exact first

theorem tracks_waitFor
    {stored : Prop} (keys arguments : List Bytes) (timeout : Int) :
    Tracks env slot expiration stored
      (waitFor dbindex keys arguments timeout) := by
  unfold waitFor
  apply tracks_reader
  intro time
  apply tracks_op .channel
  · intro db answer after performed
    cases performed
    exact .refl db
  · intro mailbox
    apply tracks_subscribes
    exact tracks_pure _

theorem brpoplpush_tracks :
    Tracks env slot expiration True (brpoplpush argv dbindex) := by
  unfold brpoplpush
  apply tracks_except
  intro _
  apply tracks_except
  intro source
  apply tracks_except
  intro destination
  apply tracks_except
  intro timeout
  apply tracks_then (genericRpoplpush_tracks source destination)
  intro reply
  split
  · exact tracks_waitFor _ _ timeout
  · exact tracks_pure _

theorem tracks_popFirst
    {right : Bool} {keys : List Bytes}
    {rest : Option Response → Writer Answer}
    (next : ∀ found, Tracks env slot expiration False (rest found)) :
    Tracks env slot expiration True
      (popFirst dbindex right keys >>= rest) := by
  induction keys with
  | nil => exact (next none).weaken False.elim
  | cons key keys ih =>
      unfold popFirst
      rw [bind_assoc]
      apply tracks_mutThen
      intro popped
      split
      · exact (next _).weaken False.elim
      · rw [bind_assoc]
        apply tracks_keyUpdated
        exact next _
      · exact ih

theorem genericBpop_tracks (right : Bool) :
    Tracks env slot expiration True (genericBpop argv dbindex right) := by
  unfold genericBpop
  apply tracks_except
  intro _
  apply tracks_popFirst
  intro found
  split
  · exact tracks_pure _
  · apply tracks_except
    intro timeout
    exact tracks_waitFor _ _ timeout

theorem linsert_tracks :
    Tracks env slot expiration True (linsert argv dbindex) := by
  unfold linsert
  apply tracks_except
  intro _
  apply tracks_except
  intro key
  apply tracks_except
  intro beforeStr
  apply tracks_except
  intro pivot
  apply tracks_except
  intro value
  split
  · exact tracks_mutAndUpdate
  · split
    · exact tracks_mutAndUpdate
    · exact tracks_throw _

theorem lrem_tracks :
    Tracks env slot expiration True (lrem argv dbindex) := by
  unfold lrem
  apply tracks_except
  intro _
  apply tracks_except
  intro key
  apply tracks_except
  intro count
  apply tracks_except
  intro value
  exact tracks_mutAndUpdate

theorem lset_tracks :
    Tracks env slot expiration True (lset argv dbindex) := by
  unfold lset
  apply tracks_except
  intro _
  apply tracks_except
  intro key
  apply tracks_except
  intro index
  apply tracks_except
  intro value
  exact tracks_mutAndUpdate

theorem ltrim_tracks :
    Tracks env slot expiration True (ltrim argv dbindex) := by
  unfold ltrim
  apply tracks_except
  intro _
  apply tracks_except
  intro key
  apply tracks_except
  intro start
  apply tracks_except
  intro stop
  exact tracks_mutAndUpdate

/-! ### Sets -/

theorem tracks_changeElements
    {method : Bytes → Value → Value.Change Bool} :
    Tracks env slot expiration True (changeElements argv dbindex method) := by
  unfold changeElements
  apply tracks_except
  intro key
  apply tracks_createThen fun _ => trivial
  intro result
  exact tracks_updateOnSuccess

theorem sadd_tracks :
    Tracks env slot expiration True (sadd argv dbindex) := by
  unfold sadd
  apply tracks_except
  intro _
  apply tracks_reader
  intro config
  exact tracks_changeElements

theorem srem_tracks :
    Tracks env slot expiration True (srem argv dbindex) := by
  unfold srem
  apply tracks_except
  intro _
  exact tracks_changeElements

theorem spop_tracks :
    Tracks env slot expiration True (spop argv dbindex) := by
  unfold spop
  apply tracks_except
  intro _
  apply tracks_except
  intro _
  apply tracks_except
  intro key
  apply tracks_getMut
  intro found
  split
  · exact tracks_pure _
  · split
    · apply tracks_reader
      intro popped
      apply tracks_put fun _ => trivial
      exact tracks_announced
    · apply tracks_except
      intro count
      apply tracks_reader
      intro popped
      apply tracks_put fun _ => trivial
      exact tracks_announced

/-- What SMOVE does once the destination is known to be a set. -/
def moveMember (dbindex : Nat) (source destination member : Bytes) :
    Writer Response := do
  match ← mutThen dbindex source fun value => some (value.srem member) with
  | none => pure (.integer 0)
  | some (.error error) => pure (.error error.message)
  | some (.ok false) => pure (.integer 0)
  | some (.ok true) => do
      let config ← Db.config
      match ← createThen dbindex destination fun value =>
          some (value.sadd member config.setMaxIntsetEntries) with
      | .error _ => orPanic none
      | .ok _ => do
          Db.keyUpdated dbindex source
          Db.keyUpdated dbindex destination
          pure (.integer 1)

theorem tracks_moveMember (source destination member : Bytes) :
    Tracks env slot expiration True
      (moveMember dbindex source destination member) := by
  unfold moveMember
  apply tracks_mutThen
  intro removed
  split
  · exact tracks_pure _
  · exact tracks_pure _
  · exact tracks_pure _
  · apply tracks_reader
    intro config
    apply tracks_createThen fun _ => trivial
    intro added
    split
    · intro db _ _ result after ran
      cases ran
    · apply tracks_keyUpdated
      exact tracks_announced

theorem smove_tracks :
    Tracks env slot expiration True (smove argv dbindex) := by
  unfold smove
  apply tracks_except
  intro _
  apply tracks_except
  intro source
  apply tracks_except
  intro destination
  apply tracks_except
  intro member
  apply tracks_reader
  intro found
  cases found with
  | none => exact tracks_moveMember source destination member
  | some value =>
      dsimp only
      split
      · exact tracks_moveMember source destination member
      · exact tracks_throw _

/-! ### Hashes -/

theorem hset_tracks :
    Tracks env slot expiration True (hset argv dbindex) := by
  unfold hset
  apply tracks_except
  intro _
  apply tracks_except
  intro key
  apply tracks_except
  intro field
  apply tracks_except
  intro value
  apply tracks_createThen fun _ => trivial
  intro result
  exact tracks_updateOnSuccess

theorem hsetnx_tracks :
    Tracks env slot expiration True (hsetnx argv dbindex) := by
  unfold hsetnx
  apply tracks_except
  intro _
  apply tracks_except
  intro key
  apply tracks_except
  intro field
  apply tracks_except
  intro value
  apply tracks_getMut
  intro found
  split
  · apply tracks_createThen fun _ => trivial
    intro result
    exact tracks_updateOnSuccess
  · split
    · exact tracks_pure _
    · exact tracks_pure _
    · apply tracks_put fun _ => trivial
      exact tracks_updateOnSuccess

theorem hmset_tracks :
    Tracks env slot expiration True (hmset argv dbindex) := by
  unfold hmset
  apply tracks_except
  intro _
  apply tracks_except
  intro _
  apply tracks_except
  intro key
  apply tracks_createThen fun _ => trivial
  intro result
  exact tracks_updateOnSuccess

theorem hdel_tracks :
    Tracks env slot expiration True (hdel argv dbindex) := by
  unfold hdel
  apply tracks_except
  intro _
  apply tracks_except
  intro key
  apply tracks_mutThen
  intro result
  split
  · exact tracks_pure _
  · exact tracks_updateOnSuccess

theorem hincrby_tracks :
    Tracks env slot expiration True (hincrby argv dbindex) := by
  unfold hincrby
  apply tracks_except
  intro _
  apply tracks_except
  intro key
  apply tracks_except
  intro field
  apply tracks_except
  intro increment
  apply tracks_createThen fun _ => trivial
  intro result
  exact tracks_updateOnSuccess

theorem hincrbyfloat_tracks :
    Tracks env slot expiration True (hincrbyfloat argv dbindex) := by
  unfold hincrbyfloat
  apply tracks_except
  intro _
  apply tracks_except
  intro key
  apply tracks_except
  intro field
  apply tracks_except
  intro increment
  apply tracks_createThen fun _ => trivial
  intro result
  exact tracks_updateOnSuccess

/-! ### Sorted sets -/

theorem zadd_tracks :
    Tracks env slot expiration True (zadd argv dbindex) := by
  unfold zadd
  apply tracks_except
  intro parsed
  apply tracks_except
  intro key
  apply tracks_createThen fun _ => trivial
  intro result
  exact tracks_updateOnCount

theorem zincrby_tracks :
    Tracks env slot expiration True (zincrby argv dbindex) := by
  unfold zincrby
  apply tracks_except
  intro _
  apply tracks_except
  intro key
  apply tracks_getOrCreate fun _ => trivial
  intro value
  apply tracks_except
  intro score
  apply tracks_except
  intro member
  apply tracks_put id
  exact tracks_updateOnSuccess

theorem zrem_tracks :
    Tracks env slot expiration True (zrem argv dbindex) := by
  unfold zrem
  apply tracks_except
  intro _
  apply tracks_except
  intro key
  apply tracks_mutThen
  intro result
  split
  · exact tracks_pure _
  · exact tracks_updateOnCount

theorem tracks_removeRange
    {key : Bytes} {method : Value → Option (Value.Change Nat)} :
    Tracks env slot expiration True (removeRange dbindex key method) := by
  unfold removeRange
  apply tracks_mutThen
  intro result
  split
  · exact tracks_pure _
  · exact tracks_updateOnCount

theorem zremrangebyscore_tracks :
    Tracks env slot expiration True (zremrangebyscore argv dbindex) := by
  unfold zremrangebyscore
  apply tracks_except
  intro _
  apply tracks_except
  intro key
  apply tracks_except
  intro min
  apply tracks_except
  intro max
  exact tracks_removeRange

theorem zremrangebylex_tracks :
    Tracks env slot expiration True (zremrangebylex argv dbindex) := by
  unfold zremrangebylex
  apply tracks_except
  intro _
  apply tracks_except
  intro key
  apply tracks_except
  intro min
  apply tracks_except
  intro max
  exact tracks_removeRange

theorem zremrangebyrank_tracks :
    Tracks env slot expiration True (zremrangebyrank argv dbindex) := by
  unfold zremrangebyrank
  apply tracks_except
  intro _
  apply tracks_except
  intro key
  apply tracks_except
  intro start
  apply tracks_except
  intro stop
  exact tracks_removeRange

end Handlers

/-! ## All updates in place -/

/-- The commands that update the value of a key in place. -/
def inPlace : CommandName → Bool
  | .append | .setrange | .setbit | .incr | .decr | .incrby | .decrby
  | .incrbyfloat | .pfadd | .pfmerge | .bfReserve | .bfAdd | .bfMadd
  | .lpush | .rpush | .lpushx | .rpushx | .lpop | .rpop | .linsert | .lrem
  | .lset | .ltrim | .rpoplpush | .brpoplpush | .brpop | .blpop
  | .sadd | .srem | .spop | .smove
  | .hset | .hsetnx | .hmset | .hdel | .hincrby | .hincrbyfloat
  | .zadd | .zincrby | .zrem | .zremrangebyscore | .zremrangebylex
  | .zremrangebyrank => true
  | _ => false

/-- The program of a handler that may write. -/
def programOf (handler : Handler) (argv : Arguments) (dbindex : Nat) :
    Option (Writer Answer) :=
  match handler with
  | .writer handle => some (Except.ok <$> handle argv dbindex)
  | .blocking handle => some (handle argv dbindex)
  | _ => none

section All

variable {env : Env} {slot : Slot} {expiration : Option Int}
  {argv : Arguments} {dbindex : Nat} {db : Database}

theorem Tracks.retains
    {α : Type} {program : Writer α}
    (tracks : ∀ expiration, Tracks env slot expiration True program)
    (live : db.visible env slot ≠ none) {result : Except Response α}
    {after : Database}
    (ran : program.run (machine env) db = some (result, after)) :
    after.value slot = none ∨
      after.expiration slot = db.expiration slot := by
  have alive : db.lapsed env slot = false := by
    cases lapsed : db.lapsed env slot with
    | false => rfl
    | true => exact absurd (if_pos lapsed) live
  have stored : db.value slot ≠ none := by
    unfold visible at live
    rw [alive] at live
    exact live
  have ends := tracks (db.expiration slot) db (.inr ⟨rfl, alive⟩)
    (fun _ => stored) result after ran
  exact ends.imp_right And.left

theorem Tracks.map
    {α β : Type} {stored : Prop} {program : Writer α} (transform : α → β)
    (tracks : Tracks env slot expiration stored program) :
    Tracks env slot expiration stored (transform <$> program) := by
  rw [map_eq_pure_bind]
  apply tracks_then tracks
  intro value
  exact tracks_pure (transform value)

/-- Every handler that updates in place. -/
theorem inPlace_tracks
    {known : CommandName} {handler : Handler} {program : Writer Answer}
    (found : Handler.ofName known = some handler)
    (listed : inPlace known = true)
    (writes : programOf handler argv dbindex = some program) :
    Tracks env slot expiration True program := by
  cases known
  case append =>
    cases found
    cases writes
    exact append_tracks.map _
  case setrange =>
    cases found
    cases writes
    exact setrange_tracks.map _
  case setbit =>
    cases found
    cases writes
    exact setbit_tracks.map _
  case incr =>
    cases found
    cases writes
    exact incr_tracks.map _
  case decr =>
    cases found
    cases writes
    exact decr_tracks.map _
  case incrby =>
    cases found
    cases writes
    exact incrby_tracks.map _
  case decrby =>
    cases found
    cases writes
    exact decrby_tracks.map _
  case incrbyfloat =>
    cases found
    cases writes
    exact incrbyfloat_tracks.map _
  case pfadd =>
    cases found
    cases writes
    exact pfadd_tracks.map _
  case pfmerge =>
    cases found
    cases writes
    exact pfmerge_tracks.map _
  case bfReserve =>
    cases found
    cases writes
    exact bfReserve_tracks.map _
  case bfAdd =>
    cases found
    cases writes
    exact bfAdd_tracks.map _
  case bfMadd =>
    cases found
    cases writes
    exact bfMadd_tracks.map _
  case lpush =>
    cases found
    cases writes
    exact (genericPush_tracks false true).map _
  case rpush =>
    cases found
    cases writes
    exact (genericPush_tracks true true).map _
  case lpushx =>
    cases found
    cases writes
    exact (genericPush_tracks false false).map _
  case rpushx =>
    cases found
    cases writes
    exact (genericPush_tracks true false).map _
  case lpop =>
    cases found
    cases writes
    exact (genericPop_tracks false).map _
  case rpop =>
    cases found
    cases writes
    exact (genericPop_tracks true).map _
  case linsert =>
    cases found
    cases writes
    exact linsert_tracks.map _
  case lrem =>
    cases found
    cases writes
    exact lrem_tracks.map _
  case lset =>
    cases found
    cases writes
    exact lset_tracks.map _
  case ltrim =>
    cases found
    cases writes
    exact ltrim_tracks.map _
  case rpoplpush =>
    cases found
    cases writes
    exact rpoplpush_tracks.map _
  case brpoplpush =>
    cases found
    cases writes
    exact brpoplpush_tracks
  case brpop =>
    cases found
    cases writes
    exact genericBpop_tracks true
  case blpop =>
    cases found
    cases writes
    exact genericBpop_tracks false
  case sadd =>
    cases found
    cases writes
    exact sadd_tracks.map _
  case srem =>
    cases found
    cases writes
    exact srem_tracks.map _
  case spop =>
    cases found
    cases writes
    exact spop_tracks.map _
  case smove =>
    cases found
    cases writes
    exact smove_tracks.map _
  case hset =>
    cases found
    cases writes
    exact hset_tracks.map _
  case hsetnx =>
    cases found
    cases writes
    exact hsetnx_tracks.map _
  case hmset =>
    cases found
    cases writes
    exact hmset_tracks.map _
  case hdel =>
    cases found
    cases writes
    exact hdel_tracks.map _
  case hincrby =>
    cases found
    cases writes
    exact hincrby_tracks.map _
  case hincrbyfloat =>
    cases found
    cases writes
    exact hincrbyfloat_tracks.map _
  case zadd =>
    cases found
    cases writes
    exact zadd_tracks.map _
  case zincrby =>
    cases found
    cases writes
    exact zincrby_tracks.map _
  case zrem =>
    cases found
    cases writes
    exact zrem_tracks.map _
  case zremrangebyscore =>
    cases found
    cases writes
    exact zremrangebyscore_tracks.map _
  case zremrangebylex =>
    cases found
    cases writes
    exact zremrangebylex_tracks.map _
  case zremrangebyrank =>
    cases found
    cases writes
    exact zremrangebyrank_tracks.map _
  all_goals cases listed

end All

end RedVector.Command
