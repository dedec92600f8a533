import RedVector.Database.Eviction
import RedVector.Effect.Totals

/-!
# The memory counter

The counter should be the sum of the estimated sizes of all stored values.
Creating a Nil adds its size and removing a value subtracts the size it has
then; nothing else is counted.
-/

namespace RedVector.Database

open Util Effect

variable [Platform]

/-- The estimated size of a value with the key of its slot. -/
def slotSize (slot : Slot) (value : Value) : Nat :=
  estimateValueSize value slot.2.length

theorem slotSize_pos (slot : Slot) (value : Value) :
    0 < slotSize slot value := by
  unfold slotSize estimateValueSize
  omega

/-- The counter is the sum of the estimated sizes of all stored values. -/
def Accounts (db : Database) : Prop :=
  Totals slotSize db.value db.usedMemory

/-- A removal of the slot is counted: there is no value that has lapsed. -/
def Counted (env : Env) (db : Database) (slot : Slot) : Prop :=
  db.lapsed env slot = true → db.value slot = none

/-- Making room for a key succeeds without the eviction of a value that has
lapsed. -/
def MakesRoom (env : Env) (db : Database) (index : Nat) (key : Bytes) :
    Prop :=
  db.value (index, key) = none → ∀ done middle,
    (db.forgotten env index key).evictKeys env index
      (estimateValueSize .nil key.length) = some (done, middle) →
    done = true ∧ ∀ other, middle.value (index, other) = none →
      other ≠ key → Counted env db (index, other)

/-- An operation whose effect on the sizes of the stored values is counted. -/
def Accounted (env : Env) (db : Database) : WriteOp → Prop
  | .getMut index key | .remove index key => Counted env db (index, key)
  | .getOrCreate index key => MakesRoom env db index key
  | .put index key value =>
      weightAt slotSize db.value (index, key) = slotSize (index, key) value
  | .setMsexpiration index key _ | .keyUpdated index key =>
      db.vanishing (index, key) = true → Counted env db (index, key)
  | .clear index => ∀ slot : Slot, slot.1 = index → db.value slot = none
  | .clearall =>
      ∀ slot : Slot, slot.1 < db.config.databases → db.value slot = none
  | _ => True

theorem accounts_new (config : Config) (aof : Option Bytes) :
    Accounts (.new config aof) :=
  Totals.nothing slotSize

section

variable {env : Env} {db after : Database} {index : Nat} {key : Bytes}

/-! ## What happens to the counter -/

theorem updateLru_usedMemory (env : Env) (db : Database) (index : Nat)
    (key : Bytes) :
    (db.updateLru env index key).usedMemory = db.usedMemory := by
  unfold updateLru
  split
  · rfl
  · rfl

theorem withCounted_usedMemory (env : Env) (db : Database) (index : Nat)
    (key : Bytes) :
    (db.withCounted env index key).usedMemory =
      db.usedMemory + slotSize (index, key) .nil :=
  updateLru_usedMemory env _ index key

/-- The bookkeeping of a removal. -/
private theorem forget_usedMemory (db : Database) (result : Option Value)
    (slot : Slot) :
    (match result with
      | some value =>
          let size := estimateValueSize value slot.2.length
          if size ≤ db.usedMemory then
            { db with usedMemory := db.usedMemory - size }
          else db
      | none => db).usedMemory =
      if (result.map (slotSize slot)).getD 0 ≤ db.usedMemory then
        db.usedMemory - (result.map (slotSize slot)).getD 0
      else db.usedMemory := by
  cases result with
  | none => simp
  | some value =>
      simp only [Option.map_some, Option.getD_some]
      unfold slotSize
      split
      · rfl
      · rfl

theorem remove_usedMemory {result : Option Value}
    (removed : db.remove env index key = some (result, after)) :
    after.usedMemory =
      if weightAt slotSize (db.visible env) (index, key) ≤ db.usedMemory then
        db.usedMemory - weightAt slotSize (db.visible env) (index, key)
      else db.usedMemory := by
  rw [show weightAt slotSize (db.visible env) (index, key) =
      (result.map (slotSize (index, key))).getD 0 by
    rw [(remove_spec removed).1]
    rfl]
  simp only [remove, Option.bind_eq_bind] at removed
  split at removed
  · obtain ⟨between, notified, removed⟩ := Option.bind_eq_some_iff.mp removed
    obtain ⟨sent, rfl⟩ := notifyKeyspaceEvent_sent notified
    cases removed
    rfl
  · cases removed
    exact forget_usedMemory (db.setData index ((db.data index).erase key)) _
      (index, key)

/-- An update is counted as the removal that it makes of an empty value. -/
theorem keyUpdated_memory
    (updated : db.keyUpdated env index key = some after) :
    (db.vanishing (index, key) = false ∧ after.value = db.value ∧
        after.usedMemory = db.usedMemory) ∨
      db.vanishing (index, key) = true ∧
        ∃ result between, db.remove env index key = some (result, between) ∧
          after.value = between.value ∧
          after.usedMemory = between.usedMemory := by
  simp only [keyUpdated, Option.bind_eq_bind] at updated
  split at updated
  · rename_i vanishing
    obtain ⟨between, vanished, updated⟩ := Option.bind_eq_some_iff.mp updated
    obtain ⟨⟨result, _⟩, removed, rfl⟩ := Option.map_eq_some_iff.mp vanished
    cases updated
    exact .inr ⟨vanishing, result, _, removed, rfl, rfl⟩
  · rename_i staying
    cases updated
    have staying : db.vanishing (index, key) = false := by
      simpa [vanishing, value] using staying
    exact .inl ⟨staying, rfl, rfl⟩

/-- Clearing counts nothing. -/
theorem clearWatched_usedMemory {keys : List Bytes}
    (cleared : clearWatched env index keys db = some after) :
    after.usedMemory = db.usedMemory := by
  induction keys generalizing db with
  | nil =>
      cases cleared
      rfl
  | cons key rest ih =>
      simp only [clearWatched, Option.bind_eq_bind] at cleared
      split at cleared
      · obtain ⟨between, updated, cleared⟩ :=
          Option.bind_eq_some_iff.mp cleared
        have gone := not_vanishing_erased db index key
        rw [ih cleared]
        rcases keyUpdated_memory updated with ⟨-, -, same⟩ | ⟨vanishes, -⟩
        · exact same
        · rw [gone] at vanishes
          cases vanishes
      · rw [ih cleared]
        rfl

theorem clear_usedMemory (cleared : db.clear env index = some after) :
    after.usedMemory = db.usedMemory := by
  simp only [clear, Option.bind_eq_bind] at cleared
  obtain ⟨between, watched, cleared⟩ := Option.bind_eq_some_iff.mp cleared
  cases cleared
  have same : between.usedMemory = db.usedMemory :=
    clearWatched_usedMemory watched
  exact same

theorem clearall_usedMemory (cleared : db.clearall env = some after) :
    after.usedMemory = db.usedMemory := by
  have each : ∀ {indexes : List Nat} {db : Database},
      indexes.foldlM (fun db index => db.clear env index) db = some after →
      after.usedMemory = db.usedMemory := by
    intro indexes
    induction indexes with
    | nil =>
        intro db cleared
        cases cleared
        rfl
    | cons index rest ih =>
        intro db cleared
        simp only [List.foldlM_cons, Option.bind_eq_bind] at cleared
        obtain ⟨between, one, others⟩ := Option.bind_eq_some_iff.mp cleared
        exact (ih others).trans (clear_usedMemory one)
  exact each cleared

/-! ## One operation -/

namespace Accounts

theorem congr (accounts : Accounts db) (value : after.value = db.value)
    (used : after.usedMemory = db.usedMemory) : Accounts after := by
  unfold Accounts
  rw [value, used]
  exact accounts

/-- The counter is right again if it moves with the size in one slot. -/
theorem set_iff (accounts : Accounts db) {slot : Slot} {value : Option Value}
    {expiration : Option Int}
    (sets : Sets db after slot value expiration) :
    Accounts after ↔ after.usedMemory + weightAt slotSize db.value slot =
      db.usedMemory + (value.map (slotSize slot)).getD 0 := by
  have others : ∀ other, other ≠ slot → after.value other = db.value other := by
    intro other different
    rw [sets.value, if_neg different]
  unfold Accounts
  rw [accounts.replace_iff others]
  unfold weightAt
  rw [sets.value_self]

theorem remove_iff (accounts : Accounts db) {result : Option Value}
    (removed : db.remove env index key = some (result, after)) :
    Accounts after ↔ Counted env db (index, key) := by
  obtain ⟨-, sets, -⟩ := remove_spec removed
  have le := accounts.le (index, key)
  have used := remove_usedMemory removed
  rw [accounts.set_iff sets, used]
  unfold Counted
  by_cases lapsed : db.lapsed env (index, key) = true
  · have unseen : db.visible env (index, key) = none := if_pos lapsed
    rw [weightAt_none unseen]
    simp only [Nat.zero_le, if_true, Nat.sub_zero, Option.map_none,
      Option.getD_none, lapsed, true_implies]
    cases found : db.value (index, key) with
    | none => simp [weightAt_none found]
    | some value =>
        have positive := slotSize_pos (index, key) value
        rw [weightAt_some found]
        simp only [reduceCtorEq, iff_false]
        omega
  · have seen : db.visible env (index, key) = db.value (index, key) :=
      if_neg lapsed
    rw [weightAt_congr seen, if_pos le]
    simp only [Option.map_none, Option.getD_none, Nat.add_zero, lapsed,
      Bool.false_eq_true, false_implies, iff_true]
    omega

theorem put_iff (accounts : Accounts db) (value : Value) :
    Accounts (db.put index key value) ↔
      weightAt slotSize db.value (index, key) =
        slotSize (index, key) value := by
  rw [accounts.set_iff (put_sets db index key value)]
  have same : (db.put index key value).usedMemory = db.usedMemory := rfl
  rw [same]
  simp only [Option.map_some, Option.getD_some]
  omega

theorem getMut_iff (accounts : Accounts db) {result : Option Value}
    (got : db.getMut env index key = some (result, after)) :
    Accounts after ↔ Counted env db (index, key) := by
  simp only [getMut, Option.bind_eq_bind] at got
  split at got
  · obtain ⟨⟨removed, between⟩, removal, got⟩ :=
      Option.bind_eq_some_iff.mp got
    cases got
    exact accounts.remove_iff removal
  · rename_i alive
    cases got
    constructor
    · intro _ lapsed
      exact absurd lapsed alive
    · intro _
      exact accounts.congr (updateLru_kept env db index key).value
        (updateLru_usedMemory env db index key)

theorem keyUpdated_iff (accounts : Accounts db)
    (updated : db.keyUpdated env index key = some after) :
    Accounts after ↔
      (db.vanishing (index, key) = true → Counted env db (index, key)) := by
  rcases keyUpdated_memory updated with ⟨staying, value, used⟩ |
    ⟨vanishing, result, between, removed, value, used⟩
  · constructor
    · intro _ vanishing
      rw [staying] at vanishing
      cases vanishing
    · exact fun _ => accounts.congr value used
  · have same : Accounts after ↔ Accounts between := by
      unfold Accounts
      rw [value, used]
    rw [same, accounts.remove_iff removed]
    exact ⟨fun counted _ => counted, fun counted => counted vanishing⟩

theorem clears_iff (accounts : Accounts db) {scope : List Nat}
    (clears : Clears db after scope)
    (used : after.usedMemory = db.usedMemory) :
    Accounts after ↔
      ∀ slot : Slot, slot.1 ∈ scope → db.value slot = none := by
  have released : ∀ slot,
      after.value slot = db.value slot ∨ after.value slot = none := by
    intro slot
    by_cases inside : slot.1 ∈ scope
    · exact .inr (clears.inside slot inside).1
    · exact .inl (clears.outside slot inside).1
  unfold Accounts
  rw [used, accounts.release_iff slotSize_pos released]
  constructor
  · intro same slot inside
    rw [← same slot]
    exact (clears.inside slot inside).1
  · intro empty slot
    by_cases inside : slot.1 ∈ scope
    · rw [empty slot inside]
      exact (clears.inside slot inside).1
    · exact (clears.outside slot inside).1

/-! ### Eviction -/

theorem evictKey (accounts : Accounts db)
    (counted : Counted env db (index, key))
    (evicted : db.evictKey env index key = some after) : Accounts after := by
  obtain ⟨⟨removed, between⟩, removal, evicted⟩ :=
    Option.bind_eq_some_iff.mp evicted
  have held := (accounts.remove_iff removal).mpr counted
  dsimp only at evicted
  split at evicted
  · obtain ⟨sent, rfl⟩ := notifyKeyspaceEvent_sent evicted
    exact held.congr rfl rfl
  · cases evicted
    exact held

theorem rounds {policy : Bytes} {needed maxmemory : Nat} {keys : List Bytes}
    {before reached : Nat × Database} (accounts : Accounts before.2)
    (rounds : Runs (Round env policy index needed maxmemory) before keys
      reached)
    (counted : ∀ key ∈ keys, Counted env before.2 (index, key)) :
    Accounts reached.2 := by
  induction rounds with
  | done state => exact accounts
  | @next before between reached first rest round others ih =>
      have here := counted first List.mem_cons_self
      apply ih (accounts.evictKey here round.evicted)
      intro key member lapsed
      have sets := (evictKey_spec round.evicted).1
      have known := (rounds_evictable others).2 key member
      have different := (evictable_before round.evicted known).1
      rw [sets.value, if_neg different]
      apply counted key (List.mem_cons_of_mem first member)
      rw [lapsed_eq] at lapsed ⊢
      rw [sets.frame.loading, sets.expiration, if_neg different] at lapsed
      exact lapsed

theorem evictKeys (accounts : Accounts db) {needed : Nat} {done : Bool}
    (evicted : db.evictKeys env index needed = some (done, after))
    (counted : ∀ key, after.value (index, key) = none →
      Counted env db (index, key)) : Accounts after := by
  unfold Database.evictKeys at evicted
  split at evicted
  · cases evicted
    exact accounts
  · obtain ⟨keys, last, rounds, -⟩ := evictLoop_rounds evicted
    refine accounts.rounds rounds ?_
    intro key member
    apply counted
    rw [(rounds_evicted rounds).value, if_pos ⟨rfl, member⟩]

theorem getOrCreate (accounts : Accounts db) {value : Value}
    (room : MakesRoom env db index key)
    (created : db.getOrCreate env index key = some (value, after)) :
    Accounts after := by
  obtain ⟨forgets, -⟩ := forgotten_sets env db index key
  have start : Accounts (db.forgotten env index key) := by
    unfold forgotten
    split
    · exact accounts.congr rfl rfl
    · exact accounts
  cases getOrCreate_creation created with
  | stored found =>
      exact start.congr (updateLru_kept env _ index key).value
        (updateLru_usedMemory env _ index key)
  | @counted done middle absent evicted fits =>
      have vacant : middle.value (index, key) = none :=
        (evictKeys_absent (forgets.value_self.trans absent) evicted).1
      have held : Accounts middle := by
        refine start.evictKeys evicted ?_
        intro other gone
        by_cases here : other = key
        · intro _
          rw [here, forgets.value_self, absent]
        · have apart : (index, other) ≠ (index, key) := by simpa using here
          have counted := (room absent done middle evicted).2 other gone here
          intro lapsed
          rw [forgets.value, if_neg apart]
          apply counted
          rw [lapsed_eq] at lapsed ⊢
          rw [forgets.frame.loading, forgets.expiration, if_neg apart]
            at lapsed
          exact lapsed
      have sets := (withCounted_sets env middle index key).1
      rw [held.set_iff sets, weightAt_none vacant, withCounted_usedMemory]
      rfl
  | refused absent evicted short =>
      cases (room absent false _ evicted).1

end Accounts

/-- Where the counter is right, an operation keeps it right if its effect is
counted. -/
theorem perform_accounts {op : WriteOp} {answer : op.Ret}
    (accounts : Accounts db) (counted : Accounted env db op)
    (performed : db.perform env op = some (answer, after)) :
    Accounts after := by
  cases op with
  | read op =>
      cases read_unchanged performed
      exact accounts
  | getMut index key =>
      exact (accounts.getMut_iff (checked_eq_some.mp performed).2).mpr counted
  | getOrCreate index key =>
      exact accounts.getOrCreate counted (checked_eq_some.mp performed).2
  | put index key value =>
      cases (checked_eq_some.mp performed).2
      exact (accounts.put_iff value).mpr counted
  | remove index key =>
      exact (accounts.remove_iff (checked_eq_some.mp performed).2).mpr counted
  | setMsexpiration index key msexpiration =>
      have set := silently_eq_some.mp (checked_eq_some.mp performed).2
      simp only [setMsexpiration, Option.bind_eq_bind] at set
      obtain ⟨between, updated, set⟩ := Option.bind_eq_some_iff.mp set
      cases set
      exact ((accounts.keyUpdated_iff updated).mpr counted).congr rfl rfl
  | removeMsexpiration index key =>
      cases (checked_eq_some.mp performed).2
      exact accounts.congr rfl rfl
  | clear index =>
      have cleared := silently_eq_some.mp (checked_eq_some.mp performed).2
      rw [accounts.clears_iff (clear_spec cleared) (clear_usedMemory cleared)]
      intro slot inside
      exact counted slot (List.mem_singleton.mp inside)
  | clearall =>
      have cleared := silently_eq_some.mp performed
      rw [accounts.clears_iff (clearall_spec cleared)
        (clearall_usedMemory cleared)]
      intro slot inside
      exact counted slot (List.mem_range.mp inside)
  | keyUpdated index key =>
      have updated := silently_eq_some.mp (checked_eq_some.mp performed).2
      exact (accounts.keyUpdated_iff updated).mpr counted
  | notifyKeyspaceEvent index eventType key commandType =>
      have notified := silently_eq_some.mp performed
      obtain ⟨sent, rfl⟩ := notifyKeyspaceEvent_sent notified
      exact accounts.congr rfl rfl
  | channel =>
      cases performed
      exact accounts
  | keySubscribe index key mailbox =>
      cases (checked_eq_some.mp performed).2
      exact accounts.congr rfl rfl

end

end RedVector.Database
